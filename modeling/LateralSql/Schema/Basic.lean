/-
  The metadata of a database: entities, the tables they live in, their fields, and the
  relations between them.

  A field is a scalar, stored in one column, or an object: another entity, embedded in
  the same table or reached through a relation.  A relation is declared in one of three
  ways (`Relation`): by join columns of the owning table, by a join table, or by naming the
  field of the other entity that owns it.
-/
import LateralSql.Keyed
import LateralSql.Schema.Error

namespace LateralSql

/-! ## Tables and columns -/

/-- A table, perhaps of a named database schema. -/
structure TableRef where
  schema : Option String := none
  name : String
  deriving Repr, DecidableEq

/-- `schema.name`, or the name alone. -/
def TableRef.display (t : TableRef) : String :=
  match t.schema with
  | some s => s ++ "." ++ t.name
  | none => t.name

/-- What a join column refers to: a column by its name, or the column of a field. -/
inductive ColumnRef where
  | column (name : String)
  | field (name : String)
  deriving Repr, DecidableEq

/-- A column that refers to a column of another table. -/
structure JoinColumn where
  name : String
  referenced : ColumnRef
  deriving Repr, DecidableEq

/-- The identifier of a spatial reference system. -/
abbrev Srid := Int32

/-! ## Scalar fields -/

/-- The types of scalar fields. -/
inductive ScalarType where
  | string | int | float | boolean | dateTime | json | geometry
  deriving Repr, DecidableEq

namespace ScalarType

/-- The name of a type, as documents and messages write it. -/
def name : ScalarType → String
  | string => "String"
  | int => "Int"
  | float => "Float"
  | boolean => "Boolean"
  | dateTime => "DateTime"
  | json => "Json"
  | geometry => "Geometry"

/-- All types. -/
def all : List ScalarType := [string, int, float, boolean, dateTime, json, geometry]

/-- Values of the type can be added. -/
def isNumeric (t : ScalarType) : Bool := t = int ∨ t = float

end ScalarType

/-- The grid of tiles that large geometries are split along. -/
structure TileGrid where
  table : TableRef
  idColumn : String
  geometryColumn : String
  deriving Repr, DecidableEq

/-- Where the parts of a geometry are stored, one row for each tile it meets. -/
structure GeometrySegments where
  table : TableRef
  /-- Columns of the segments table that refer to the row the geometry belongs to. -/
  joinColumns : List JoinColumn
  tileColumn : String
  geometryColumn : String
  tiles : TileGrid
  deriving Repr, DecidableEq

/-- The spatial metadata of a column. -/
structure GeometryInfo where
  srid : Srid
  segments : Option GeometrySegments := none
  deriving Repr, DecidableEq

/-- A field stored in one column. -/
structure ScalarField where
  name : String
  column : String
  type : ScalarType
  isList : Bool := false
  geometry : Option GeometryInfo := none
  deriving Repr, DecidableEq

/-- The same field with geometry metadata, which makes it a geometry. -/
def ScalarField.withGeometry (f : ScalarField) (info : GeometryInfo) : ScalarField :=
  { f with type := .geometry, geometry := some info }

/-! ## Object fields -/

/-- A table whose rows relate rows of two entities. -/
structure JoinTable where
  table : TableRef
  /-- Columns that refer to the owning entity. -/
  joinColumns : List JoinColumn
  /-- Columns that refer to the target. -/
  inverseJoinColumns : List JoinColumn
  deriving Repr, DecidableEq

/-- How the related rows are found. -/
inductive Relation where
  /-- Columns of the owning table refer to the target. -/
  | joinColumns (columns : List JoinColumn)
  | joinTable (table : JoinTable)
  /-- The named field of the target owns the relation. -/
  | mappedBy (field : String)
  deriving Repr, DecidableEq

/-- A field that is another entity. Without a relation its columns are those of the same table. -/
structure ObjectField where
  name : String
  target : String
  isList : Bool := false
  relation : Option Relation
  deriving Repr, DecidableEq

/-- The object is stored in the row of the entity. -/
def ObjectField.isEmbedded (f : ObjectField) : Bool := f.relation.isNone

/-- A field of an entity. -/
inductive Field where
  | scalar (f : ScalarField)
  | object (f : ObjectField)
  deriving Repr, DecidableEq

namespace Field

/-- The name of a field. -/
def name : Field → String
  | scalar f => f.name
  | object f => f.name

/-- The scalar field, if it is one. -/
def scalar? : Field → Option ScalarField
  | scalar f => some f
  | object _ => none

/-- The object field, if it is one. -/
def object? : Field → Option ObjectField
  | object f => some f
  | scalar _ => none

end Field

/-! ## Entities -/

/-- An entity: its table, the names of the fields that identify a row, and its fields. -/
structure Entity where
  name : String
  table : TableRef
  keys : List String := []
  fields : List Field := []
  deriving Repr, DecidableEq

namespace Entity

/-- Adds a field, in the place of one of the same name. -/
def withField (e : Entity) (f : Field) : Entity := { e with fields := putBy Field.name f e.fields }

/-- Adds the name of a key field. -/
def withKey (e : Entity) (name : String) : Entity := { e with keys := e.keys ++ [name] }

/-- The field with the given name. -/
def field (e : Entity) (name : String) : Except ModelError Field :=
  match e.fields.find? (·.name = name) with
  | some f => .ok f
  | none => .error (.fieldNotFound e.name name)

/-- The scalar field with the given name. -/
def scalarField (e : Entity) (name : String) : Except ModelError ScalarField := do
  match ← e.field name with
  | .scalar f => .ok f
  | .object _ => .error (.notScalar e.name name)

/-- The object field with the given name. -/
def objectField (e : Entity) (name : String) : Except ModelError ObjectField := do
  match ← e.field name with
  | .object f => .ok f
  | .scalar _ => .error (.notObject e.name name)

/-- The scalar fields that identify a row. -/
def keyFields (e : Entity) : Except ModelError (List ScalarField) := e.keys.mapM e.scalarField

/-- The field is one of those that identify a row. -/
def isKey (e : Entity) (name : String) : Bool := e.keys.contains name

end Entity

/-! ## Schemas -/

/-- The entities of a model, one for each name. -/
structure Schema where
  entities : List Entity
  deriving Repr, DecidableEq

namespace Schema

/-- The entity with the given name. -/
def entity (s : Schema) (name : String) : Except ModelError Entity :=
  match s.entities.find? (·.name = name) with
  | some e => .ok e
  | none => .error (.entityNotFound name)

/-- Checks that an object field's target exists and, for an inverse relation, that the field it
    names owns a relation back to the entity. -/
def checkField (s : Schema) (e : Entity) (f : ObjectField) : Except ModelError Unit := do
  let target ← s.entity f.target
  match f.relation with
  | some (.mappedBy inverse) =>
    let owning ← target.objectField inverse
    match owning.relation with
    | none | some (.mappedBy _) =>
      throw (.invalidRelation (e.name ++ "." ++ f.name) (.notOwner target.name inverse))
    | some _ =>
      if owning.target ≠ e.name then
        throw (.invalidRelation (e.name ++ "." ++ f.name) (.notBack target.name inverse e.name))
  | _ => return

/-- Checks the key fields of an entity, then its object fields in order. -/
def checkEntity (s : Schema) (e : Entity) : Except ModelError Unit := do
  let _ ← e.keyFields
  e.fields.forM fun f => match f with
    | .object f => s.checkField e f
    | .scalar _ => return

/-- Checks all entities in order. -/
def check (s : Schema) : Except ModelError Unit := s.entities.forM s.checkEntity

/-- The schema of the given entities, the last of a name in the place of the first. -/
def ofEntities (entities : List Entity) : Except ModelError Schema := do
  let s : Schema := ⟨lastBy Entity.name entities⟩
  s.check
  return s

end Schema

end LateralSql

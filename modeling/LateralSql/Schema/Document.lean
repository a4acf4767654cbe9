/-
  Schemas as JSON documents: an array of entities, each with its fields.

  A document is read from front to back, so of two faults the first one is reported: a
  refused relation of a field (`ModelError.refusedSchema`) also if the text breaks off
  later.  A field is read as a whole before its relation is looked at, and what an entity
  has under other keys is passed over.
-/
import LateralSql.Schema.Basic
import LateralSql.Json.Outline
import LateralSql.Json.Record

namespace LateralSql

open Json (fields? required optional nullable list?)

/-! ## Tables and columns -/

/-- A name, or an object with a schema and a name. -/
def TableRef.ofJson? : Json → Option TableRef
  | .str name => some { name }
  | .obj members => do
    let fields ← Json.knownOnce? ["schema", "name"] members
    let schema ← required fields "schema" Json.string?
    let name ← required fields "name" Json.string?
    return { schema := some schema, name }
  | _ => none

/-- What the first of the two keys refers to. -/
def ColumnRef.ofMembers? : List (String × Json) → Option ColumnRef
  | [] => none
  | (key, j) :: rest =>
    if key = "referencedColumn" then j.string?.map .column
    else if key = "referencedField" then j.string?.map .field
    else ColumnRef.ofMembers? rest

/-- An object with a name and a reference. -/
def JoinColumn.ofJson? : Json → Option JoinColumn
  | .obj members => do
    let fields ← Json.knownOnce? ["name"] members
    let name ← required fields "name" Json.string?
    return ⟨name, ← ColumnRef.ofMembers? members⟩
  | _ => none

/-! ## Scalar fields -/

/-- The types by their names. -/
def ScalarType.byName : List (String × ScalarType) := ScalarType.all.map fun t => (t.name, t)

/-- Reads a type by its name. -/
def ScalarType.ofJson? : Json → Option ScalarType := Json.choice? byName

/-- Reads a grid of tiles. -/
def TileGrid.ofJson? (j : Json) : Option TileGrid := do
  let fields ← fields? ["table", "idColumn", "geometryColumn"] j
  return {
    table := ← required fields "table" TableRef.ofJson?
    idColumn := ← required fields "idColumn" Json.string?
    geometryColumn := ← required fields "geometryColumn" Json.string? }

/-- Reads where the segments of a geometry are. -/
def GeometrySegments.ofJson? (j : Json) : Option GeometrySegments := do
  let fields ← fields? ["table", "joinColumns", "tileColumn", "geometryColumn", "tiles"] j
  return {
    table := ← required fields "table" TableRef.ofJson?
    joinColumns := ← required fields "joinColumns" (list? JoinColumn.ofJson?)
    tileColumn := ← required fields "tileColumn" Json.string?
    geometryColumn := ← required fields "geometryColumn" Json.string?
    tiles := ← required fields "tiles" TileGrid.ofJson? }

/-- Reads the spatial metadata of a column. -/
def GeometryInfo.ofJson? (j : Json) : Option GeometryInfo := do
  let fields ← fields? ["srid", "segments"] j
  return {
    srid := ← required fields "srid" Json.int32?
    segments := ← nullable fields "segments" GeometrySegments.ofJson? }

/-- Reads a scalar field; one that is not declared a list holds single values. -/
def ScalarField.ofJson? (j : Json) : Option ScalarField := do
  let fields ← fields? ["name", "column", "type", "isList", "geometry"] j
  return {
    name := ← required fields "name" Json.string?
    column := ← required fields "column" Json.string?
    type := ← required fields "type" (Json.looseChoice? ScalarType.byName)
    isList := ← optional fields "isList" false Json.bool?
    geometry := ← nullable fields "geometry" GeometryInfo.ofJson? }

/-! ## Object fields -/

/-- Reads a join table, which may lack columns on either side. -/
def JoinTable.ofJson? (j : Json) : Option JoinTable := do
  let fields ← fields? ["table", "joinColumns", "inverseJoinColumns"] j
  return {
    table := ← required fields "table" TableRef.ofJson?
    joinColumns := ← required fields "joinColumns" (list? JoinColumn.ofJson?)
    inverseJoinColumns := ← required fields "inverseJoinColumns" (list? JoinColumn.ofJson?) }

/-- A relation as it is declared, in any number of ways. -/
structure RelationConfig where
  joinColumns : Option (List JoinColumn) := none
  joinTable : Option JoinTable := none
  mappedBy : Option String := none
  deriving Repr, DecidableEq

namespace RelationConfig

/-- Reads the declaration of a relation. -/
def ofJson? (j : Json) : Option RelationConfig := do
  let fields ← fields? ["joinColumns", "joinTable", "mappedBy"] j
  return {
    joinColumns := ← nullable fields "joinColumns" (list? JoinColumn.ofJson?)
    joinTable := ← nullable fields "joinTable" JoinTable.ofJson?
    mappedBy := ← nullable fields "mappedBy" Json.string? }

/-- The ways in which the relation is declared. -/
def declared (c : RelationConfig) : List String :=
  (if c.joinColumns.isSome then ["joinColumns"] else []) ++
    (if c.joinTable.isSome then ["joinTable"] else []) ++
    (if c.mappedBy.isSome then ["mappedBy"] else [])

/-- The relation, if it is declared in exactly one way. -/
def relation (c : RelationConfig) : Except RelationFault Relation :=
  match c with
  | ⟨some columns, none, none⟩ =>
    if columns = [] then .error .emptyJoinColumns else .ok (.joinColumns columns)
  | ⟨none, some table, none⟩ => .ok (.joinTable table)
  | ⟨none, none, some field⟩ => .ok (.mappedBy field)
  | c => .error (.notExactlyOne c.declared)

end RelationConfig

/-- An object field as it is declared. -/
structure ObjectFieldConfig where
  name : String
  target : String
  isList : Bool := false
  embedded : Bool := false
  relation : Option RelationConfig := none
  deriving Repr, DecidableEq

namespace ObjectFieldConfig

/-- Reads the declaration of an object field. -/
def ofJson? (j : Json) : Option ObjectFieldConfig := do
  let fields ← fields? ["name", "target", "isList", "embedded", "relation"] j
  return {
    name := ← required fields "name" Json.string?
    target := ← required fields "target" Json.string?
    isList := ← optional fields "isList" false Json.bool?
    embedded := ← optional fields "embedded" false Json.bool?
    relation := ← nullable fields "relation" RelationConfig.ofJson? }

/-- The relation of the field, none if it is embedded. -/
def kind (c : ObjectFieldConfig) : Except RelationFault (Option Relation) :=
  match c.embedded, c.relation with
  | true, none => .ok none
  | false, some relation => relation.relation.map some
  | true, some _ => .error .embeddedRelation
  | false, none => .error .undeclared

/-- The field that is declared, if its relation is not refused. -/
def field (c : ObjectFieldConfig) : Except RelationFault ObjectField := do
  return { name := c.name, target := c.target, isList := c.isList, relation := ← c.kind }

end ObjectFieldConfig

/-! ## Fields and entities -/

/-- The kind of a field and the rest of its description. -/
def Field.tagged? : Json → Option (String × Json)
  | .obj members => do
    let tag ← Json.knownOnce? ["kind"] members
    let kind ← required tag "kind" Json.string?
    return (kind, .obj (members.filter fun m => m.1 ≠ "kind"))
  | .arr (.str kind :: rest) => some (kind, .arr rest)
  | _ => none

/-- What is read of a schema document, or its first fault. -/
def orMalformed {α : Type} : Option α → Except ModelError α
  | some a => .ok a
  | none => .error .malformedSchema

/-- Reads a field of either kind. -/
def Field.ofJson (j : Json) : Except ModelError Field := do
  let (kind, j) ← orMalformed (Field.tagged? j)
  if kind = "scalar" then
    return .scalar (← orMalformed (ScalarField.ofJson? j))
  else if kind = "object" then
    let config ← orMalformed (ObjectFieldConfig.ofJson? j)
    match config.field with
    | .ok f => return .object f
    | .error fault => throw (.refusedSchema config.name fault)
  else throw .malformedSchema

/-- The parts of an entity that have been read. -/
structure EntityParts where
  name : Option String := none
  table : Option TableRef := none
  keys : Option (List String) := none
  fields : Option (List Field) := none

namespace EntityParts

/-- The keys of an entity's description, in order. -/
def keyNames : List String := ["name", "table", "keyFields", "fields"]

/-- Reads one member of an entity's description. A known key must not occur again. -/
def put (p : EntityParts) (key : String) (j : Json) : Except ModelError EntityParts := do
  if key = "name" then
    if p.name.isSome then throw .malformedSchema
    return { p with name := some (← orMalformed j.string?) }
  else if key = "table" then
    if p.table.isSome then throw .malformedSchema
    return { p with table := some (← orMalformed (TableRef.ofJson? j)) }
  else if key = "keyFields" then
    if p.keys.isSome then throw .malformedSchema
    return { p with keys := some (← orMalformed (list? Json.string? j)) }
  else if key = "fields" then
    if p.fields.isSome then throw .malformedSchema
    return { p with fields := some (← (← orMalformed j.array?).mapM Field.ofJson) }
  else return p

/-- The entity, if all that it needs has been read. -/
def entity? (p : EntityParts) : Option Entity := do
  return {
    name := ← p.name
    table := ← p.table
    keys := p.keys.getD []
    fields := lastBy Field.name (← p.fields) }

end EntityParts

/-- Reads an entity: an object by its keys, or an array in their order. -/
def Entity.ofJson (j : Json) : Except ModelError Entity := do
  let members ← orMalformed <| match j with
    | .obj members => some members
    | .arr items => some (EntityParts.keyNames.zip items)
    | _ => none
  let parts ← members.foldlM (fun (p : EntityParts) m => p.put m.1 m.2) {}
  if let .arr items := j then
    if EntityParts.keyNames.length < items.length then throw .malformedSchema
  orMalformed parts.entity?

/-! ## Schemas -/

/-- How a document is read: entity by entity, and the fields of an entity one by one. -/
def Schema.outline : Json.Outline :=
  .items (.record
    [("name", .whole), ("table", .whole), ("keyFields", .whole), ("fields", .items .whole)])

/-- Reads a schema from the text of a JSON document. -/
def Schema.ofText (s : String) : Except ModelError Schema := do
  let (j, whole) ← orMalformed (Json.readAlong? outline s)
  let entities ← (← orMalformed j.array?).mapM Entity.ofJson
  if whole then Schema.ofEntities entities else throw .malformedSchema

end LateralSql

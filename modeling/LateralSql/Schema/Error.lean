/-
  What can be wrong with a model: with the metadata of entities and relations, or with
  the keys and sort directions of a request over them.
-/
import LateralSql.Text.Listing

namespace LateralSql

/-- Why the declaration of a relation is refused. -/
inductive RelationFault where
  /-- The join columns are declared, but there are none. -/
  | emptyJoinColumns
  /-- Not exactly one way to find the related rows is declared. -/
  | notExactlyOne (declared : List String)
  | embeddedRelation
  | undeclared
  /-- The field named as the owning side is embedded, or names an owning side itself. -/
  | notOwner (entity field : String)
  /-- The owning side relates its entity to another one. -/
  | notBack (entity field target : String)
  deriving Repr, DecidableEq

/-- What is wrong with a model. -/
inductive ModelError where
  | entityNotFound (name : String)
  | fieldNotFound (entity field : String)
  | notScalar (entity field : String)
  | notObject (entity field : String)
  | invalidRelation (field : String) (fault : RelationFault)
  | invalidRelationConfig (fault : RelationFault)
  | inconsistentKeys (expected found : List String)
  | noKeys
  | sortDirection (text : String)
  /-- The schema document does not have the form of a schema. -/
  | malformedSchema
  /-- A field of the schema document declares a relation that is refused. -/
  | refusedSchema (field : String) (fault : RelationFault)
  deriving Repr, DecidableEq

namespace RelationFault

/-- The fault of a configuration, as it is reported on its own. -/
def configMessage (reason : String) : String := "Invalid relation configuration: " ++ reason

/-- The fault in words, for messages. -/
def reason : RelationFault → String
  | emptyJoinColumns => "joinColumns must not be empty"
  | notExactlyOne declared =>
    "expected exactly one of joinColumns, joinTable or mappedBy, found " ++ Text.listing declared
  | embeddedRelation => "an embedded field cannot declare a relation"
  | undeclared => "a relation must declare exactly one of joinColumns, joinTable or mappedBy"
  | notOwner entity field => "`" ++ entity ++ "." ++ field ++ "` does not own the relation"
  | notBack entity field target =>
    "`" ++ entity ++ "." ++ field ++ "` does not point back to `" ++ target ++ "`"

/-- The reason as it is given for a field: a fault of its configuration says so. -/
def fieldReason : RelationFault → String
  | emptyJoinColumns => configMessage emptyJoinColumns.reason
  | notExactlyOne declared => configMessage (notExactlyOne declared).reason
  | fault => fault.reason

/-- The message about a field with a refused relation. -/
def fieldMessage (field : String) (fault : RelationFault) : String :=
  "Invalid relation on `" ++ field ++ "`: " ++ fault.fieldReason

end RelationFault

/-- The message about a field of an entity. -/
def fieldMessage (entity field what : String) : String :=
  "Field `" ++ field ++ "` on entity `" ++ entity ++ "` " ++ what

/-- The message of an error. -/
def ModelError.message : ModelError → String
  | entityNotFound name => "Entity `" ++ name ++ "` not found"
  | fieldNotFound entity field => fieldMessage entity field "not found"
  | notScalar entity field => fieldMessage entity field "is not a scalar field"
  | notObject entity field => fieldMessage entity field "is not an object field"
  | invalidRelation field fault => RelationFault.fieldMessage field fault
  | invalidRelationConfig fault => RelationFault.configMessage fault.reason
  | inconsistentKeys expected found =>
    "Join criteria key names " ++ Text.listing found ++ " do not match the expected " ++
      Text.listing expected
  | noKeys => "Join criteria must contain at least one key"
  | sortDirection text => "Unsupported sort direction `" ++ text ++ "`"
  | malformedSchema => "Invalid schema"
  | refusedSchema field fault => RelationFault.fieldMessage field fault

end LateralSql

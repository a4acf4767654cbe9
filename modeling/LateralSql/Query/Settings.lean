/-
  What is fixed for all queries of a database: how values reach the query, the schema
  of tables that name none, and the names of context functions.
-/
import LateralSql.Json.Record

namespace LateralSql

/-- How values reach a query. -/
inductive ParamMode where
  /-- Placeholders in the text, values beside it. -/
  | bind
  /-- Values as literals of the text. -/
  | inline
  deriving Repr, DecidableEq

/-- How queries are written, and where tables are found. -/
structure Settings where
  paramMode : ParamMode := .bind
  /-- The schema of tables whose metadata names none. -/
  defaultSchema : Option String := none
  /-- What is appended to a table's name for the function that reads it under a context. -/
  contextSuffix : String := "_ctx"
  deriving Repr, DecidableEq

/-- Reads settings; what is missing has its default. -/
def Settings.ofJson? (j : Json) : Option Settings := do
  let fields ← Json.fields? ["paramMode", "defaultSchema", "contextTableSuffix"] j
  let default : Settings := {}
  return {
    paramMode := ← Json.optional fields "paramMode" default.paramMode
      (Json.choice? [("bind", .bind), ("inline", .inline)])
    defaultSchema := ← Json.nullable fields "defaultSchema" Json.string?
    contextSuffix := ← Json.optional fields "contextTableSuffix" default.contextSuffix
      Json.string? }

end LateralSql

/-
  Requests compiled to statements, with what it takes to read their rows.

  * `Compiler.object` and `Compiler.collection` give one statement for a whole tree;
  * `Compiler.batch` gives one statement for the related rows of many parents, and the
    grouping that gives them back to their parents.

  In a batch the keys of the parents are a table of values, to each row of which the
  query of the related rows is joined, so a parent without related rows has a row too.
-/
import LateralSql.Query.Node
import LateralSql.Row.Grouping
import LateralSql.Sql.Statement

namespace LateralSql

/-- A statement and how an object is read from each of its rows. -/
structure CompiledQuery where
  statement : Sql.Statement
  assembler : Assembler

/-- A statement for many parents, and how its rows are given back to them. -/
structure CompiledBatch extends CompiledQuery where
  grouping : Grouping

/-- The select of a batch with its reading. -/
structure BatchSelect where
  select : Sql.Select
  assembler : Assembler
  grouping : Grouping

/-- The select for the related rows of many parents. -/
def batchSelect (c : Compiler) (r : BatchRequest) : Compile BatchSelect := do
  let parent ← c.schema.entity r.entity
  let f ← parent.objectField r.field
  if f.target ≠ r.request.entity then
    throw (.invalidRequest (.otherTarget parent.name f.name f.target r.request.entity))
  else
    let link ← Link.resolve c.schema parent f
    let expected := sortBy Prod.fst (link.parentColumns.zip link.parentTypes)
    if r.keys.names ≠ expected.map (·.1) then
      throw (.model (.inconsistentKeys (expected.map (·.1)) r.keys.names))
    else
      let name ← freshTable
      let keyColumns ← r.keys.names.mapM fun key => return (key, ← freshColumn)
      let wrapper ← freshTable
      let child ← node c (some ⟨link, name, true⟩) r.request
      return {
        select := {
          tables := [keyTable r.keys (expected.map (·.2)) name]
          columns := keyColumns.map (fun k => (Sql.Expr.column (Sql.col name k.1)).as k.2) ++
            [.star (some wrapper)]
          joins := [.ofLateral child.select wrapper]
          condition := .always }
        assembler := child.assembler
        grouping := ⟨r.keys.keys, keyColumns, child.existsColumns⟩ }

namespace Compiler

/-- Compiles one request, with all names to be handed out. -/
def run {α : Type} (x : Compile α) : Except QueryError α := x.run' {}

/-- The statement of a select. -/
def statement (c : Compiler) (s : Sql.Select) : Sql.Statement := s.statement c.settings.paramMode

/-- Compiles a request for objects of one entity. -/
def object (c : Compiler) (r : ObjectRequest) : Except QueryError CompiledQuery := do
  let n ← run (node c none r)
  return ⟨c.statement n.select, n.assembler⟩

/-- Compiles a request for a collection. -/
def collection (c : Compiler) (r : CollectionRequest) : Except QueryError CompiledQuery :=
  c.object r.root

/-- Compiles a request for the related rows of many parents. -/
def batch (c : Compiler) (r : BatchRequest) : Except QueryError CompiledBatch := do
  let b ← run (batchSelect c r)
  return { statement := c.statement b.select, assembler := b.assembler, grouping := b.grouping }

end Compiler

end LateralSql

/-
  From flat result rows to nested objects.

  A row gives values to the column names of a query.  An `Assembler` says how the object
  of a row is built: which column each field is read from, and which column tells by a null
  that there is no object in the row.
-/
import LateralSql.Value.KeyMap

namespace LateralSql

/-- A result row: values by column name. -/
abbrev Row := List (String × Value)

namespace Row

/-- The value of a column, if the row has it. -/
def get? (row : Row) (column : String) : Option Value := row.lookup column

/-- The value of a column; a missing one is null. -/
def get (row : Row) (column : String) : Value := (row.get? column).getD .null

end Row

mutual

/-- How a field of an object is read from a row. -/
inductive FieldReader where
  | column (column : String)
  | object (a : Assembler)
  /-- The key of a parent for its related rows: names and the columns that hold their values. -/
  | joinKey (columns : List (String × String))

/-- How an object is read from a row. -/
structure Assembler where
  fields : List (String × FieldReader)
  /-- The column that is null if and only if the row holds no object. -/
  checkNull : Option String := none
  /-- What stands for a missing object. -/
  nullObject : Option Value := none

end

namespace Assembler

/-- The same assembler with a value for missing objects. -/
def withNullObject (a : Assembler) (v : Value) : Assembler := { a with nullObject := some v }

/-- The first field of the given name. -/
def field? (a : Assembler) (name : String) : Option FieldReader := a.fields.lookup name

/-- Whether the row holds no object. -/
def isAbsent (checkNull : Option String) (row : Row) : Bool :=
  match checkNull with
  | none => false
  | some column => (row.get column).isNull

mutual

/-- The columns that the fields are read from, in order. -/
def columns : Assembler → List String
  | ⟨fields, _, _⟩ => columnsOf fields
termination_by structural a => a

/-- The columns that some fields are read from. -/
def columnsOf : List (String × FieldReader) → List String
  | [] => []
  | (_, f) :: rest => fieldColumns f ++ columnsOf rest
termination_by structural fields => fields

/-- The columns that a field is read from. -/
def fieldColumns : FieldReader → List String
  | .column c => [c]
  | .object a => a.columns
  | .joinKey cs => cs.map (·.2)
termination_by structural f => f

end

mutual

/-- The object of a row. -/
def read (row : Row) : Assembler → Option Value
  | ⟨fields, checkNull, nullObject⟩ =>
    if isAbsent checkNull row then nullObject else some (.object (readFields row fields))
termination_by structural a => a

/-- The members of an object. -/
def readFields (row : Row) : List (String × FieldReader) → List (String × Value)
  | [] => []
  | (name, f) :: rest => (name, readField row f) :: readFields row rest
termination_by structural fields => fields

/-- The value of a field. A missing object is null. -/
def readField (row : Row) : FieldReader → Value
  | .column c => row.get c
  | .object a => (read row a).getD .null
  | .joinKey cs => .object (cs.map fun c => (c.1, row.get c.2))
termination_by structural f => f

end

end Assembler

end LateralSql

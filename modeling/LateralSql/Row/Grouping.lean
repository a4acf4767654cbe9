/-
  The rows of a batch, regrouped by the key of their parent.

  The groups are those of the requested keys, in order, then those of other keys in the
  order in which rows bring them.  A row adds an object to the group of its key if it
  carries a related row at all (`Grouping.carriesChild`) and its object is present.
-/
import LateralSql.Row.Assembler

namespace LateralSql

/-- How the rows of a batch belong to their parents. -/
structure Grouping where
  keys : List KeyMap
  /-- Names of the key and the columns that hold their values. -/
  keyColumns : List (String × String)
  /-- Columns of which one is not null if the row carries a related row. -/
  existsColumns : List String
  deriving Repr

/-- The objects of each key. -/
abbrev Groups := List (KeyMap × List Value)

namespace Groups

/-- Adds objects to the group of a key, which is made if there is none. -/
def add (key : KeyMap) (objects : List Value) : Groups → Groups
  | [] => [(key, objects)]
  | (k, vs) :: rest =>
    if k == key then (k, vs ++ objects) :: rest else (k, vs) :: add key objects rest

end Groups

namespace Grouping

/-- The key of the parent that a row belongs to. -/
def keyOf (g : Grouping) (row : Row) : KeyMap :=
  KeyMap.ofMembers (g.keyColumns.map fun c => (c.1, row.get c.2))

/-- Whether a row carries a related row, and not just the key of a parent without any. -/
def carriesChild (g : Grouping) (row : Row) : Bool :=
  g.existsColumns.any fun c => !(row.get c).isNull

/-- A group without objects for each requested key. -/
def start (g : Grouping) : Groups := g.keys.foldl (fun groups k => Groups.add k [] groups) []

/-- The objects that a row brings: one or none. -/
def objectsOf (g : Grouping) (a : Assembler) (row : Row) : List Value :=
  if g.carriesChild row then (a.read row).toList else []

/-- Adds a row. -/
def push (g : Grouping) (a : Assembler) (groups : Groups) (row : Row) : Groups :=
  Groups.add (g.keyOf row) (g.objectsOf a row) groups

/-- Groups the rows of a batch. -/
def group (g : Grouping) (a : Assembler) (rows : List Row) : Groups := rows.foldl (g.push a) g.start

/-- Groups rows that arrive one by one and may fail to arrive; the first failure is the result. -/
def groupArriving {ε : Type} (g : Grouping) (a : Assembler) (rows : List (Except ε Row)) :
    Except ε Groups :=
  rows.foldlM (fun groups row => return g.push a groups (← row)) g.start

end Grouping

end LateralSql

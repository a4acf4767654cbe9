/-
  Requests: what a client wants to know.

  An `ObjectRequest` is one node of the wanted tree: fields of an entity, nested objects,
  aggregates over related rows, and which rows are wanted in which order.  A
  `CollectionRequest` adds criteria for the rows of the root.  A `BatchRequest` asks for the
  related rows of many parents at once, given by their `JoinKeys`.
-/
import LateralSql.Request.Filter
import LateralSql.Value.KeyMap

namespace LateralSql

/-! ## Order and paging -/

/-- The direction of an order. -/
inductive Direction where
  | ascending | descending
  deriving Repr, DecidableEq

/-- Reads a direction, in any case of its letters. -/
def Direction.read (s : String) : Except ModelError Direction :=
  let lower := String.ofList (s.toList.map Char.toLower)
  if lower = "asc" ∨ lower = "ascending" then .ok .ascending
  else if lower = "desc" ∨ lower = "descending" then .ok .descending
  else .error (.sortDirection s)

/-- A field to sort by. -/
structure SortKey where
  field : String
  direction : Direction
  deriving Repr, DecidableEq

/-- Reads a sort key whose direction is given as text. -/
def SortKey.read (field direction : String) : Except ModelError SortKey :=
  return ⟨field, ← Direction.read direction⟩

/-- How many rows are asked for, and how many are left out before them. -/
structure Paging where
  limit : Option UInt64 := none
  offset : Option UInt64 := none
  deriving Repr, DecidableEq

/-! ## Aggregates -/

/-- How the values of many rows become one. -/
inductive AggregateFunction where
  | sum | avg | min | max | count
  /-- The texts, one after another. -/
  | join
  deriving Repr, DecidableEq

namespace AggregateFunction

/-- The name of a function, as requests and messages write it. -/
def name : AggregateFunction → String
  | sum => "SUM"
  | avg => "AVG"
  | min => "MIN"
  | max => "MAX"
  | count => "COUNT"
  | join => "JOIN"

/-- All functions. -/
def all : List AggregateFunction := [sum, avg, min, max, count, join]

end AggregateFunction

/-- The type of an aggregated number. -/
inductive NumericType where
  | int | float
  deriving Repr, DecidableEq

/-- One aggregated value. -/
structure Aggregate where
  label : String
  function : AggregateFunction
  /-- Only rows can be counted without a field. -/
  field : Option String := none
  resultType : Option NumericType := none
  distinct : Bool := false
  separator : Option String := none
  deriving Repr, DecidableEq

/-- Aggregates over the rows that one object field relates. -/
structure AggregateRequest where
  field : String
  label : String
  aggregates : List Aggregate := []
  filters : List Filter := []
  deriving Repr

/-! ## Objects -/

/-- A scalar field of the answer. -/
structure SelectedField where
  name : String
  label : String
  /-- The reference system a geometry is wanted in. -/
  srid : Option Srid := none
  deriving Repr, DecidableEq

/-- A named value that selects a variant of a table. -/
structure ContextValue where
  name : String
  value : Value
  deriving Repr

mutual

/-- One node of the wanted tree. -/
structure ObjectRequest where
  entity : String
  selected : List SelectedField := []
  objects : List ObjectFieldRequest := []
  aggregates : List AggregateRequest := []
  filters : List Filter := []
  sort : List SortKey := []
  paging : Option Paging := none
  /-- The keys of the wanted rows; without any, all rows. -/
  keys : List KeyMap := []
  context : List ContextValue := []

/-- A nested object of the answer. -/
structure ObjectFieldRequest where
  field : String
  label : String
  request : ObjectRequest

end

/-- Whether anything but the selection restricts or orders the rows. -/
def ObjectRequest.hasRowCriteria (r : ObjectRequest) : Bool :=
  !r.filters.isEmpty || !r.sort.isEmpty || r.paging.isSome || !r.keys.isEmpty || !r.context.isEmpty

/-- An object request with criteria for the rows of the root. -/
structure CollectionRequest where
  object : ObjectRequest
  filters : List Filter := []
  sort : List SortKey := []
  paging : Option Paging := none

/-- The object request for the rows of the root: its own criteria come first, and the paging of the
    collection, if there is one, replaces its own. -/
def CollectionRequest.root (r : CollectionRequest) : ObjectRequest :=
  { r.object with
    filters := r.object.filters ++ r.filters
    sort := r.object.sort ++ r.sort
    paging := r.paging <|> r.object.paging }

/-! ## Batches -/

/-- The keys of many parents: some keys, each of them once, all with the same names. -/
@[ext] structure JoinKeys where
  keys : List KeyMap
  nonempty : keys ≠ [] := by decide
  distinct : keys.Pairwise fun k l => (k == l) = false := by decide
  named : ∀ k ∈ keys, ∀ l ∈ keys, k.names = l.names := by decide
  deriving Repr

namespace JoinKeys

/-- Keys without repetitions, if there are any and all have the names of the first one. -/
def ofDistinct : (keys : List KeyMap) → (keys.Pairwise fun k l => (k == l) = false) →
    Except ModelError JoinKeys
  | [], _ => .error .noKeys
  | first :: rest, distinct =>
    match hrest : rest.find? fun k => k.names ≠ first.names with
    | some other => .error (.inconsistentKeys first.names other.names)
    | none =>
      have hfirst : ∀ k ∈ first :: rest, k.names = first.names := by
        simpa using hrest
      .ok ⟨first :: rest, List.cons_ne_nil _ _, distinct, fun k hk l hl =>
        (hfirst k hk).trans (hfirst l hl).symm⟩

/-- The keys of a list, in the order in which they first occur. -/
def ofList (keys : List KeyMap) : Except ModelError JoinKeys :=
  ofDistinct (firstOccurrences keys) (firstOccurrences_pairwise keys)

/-- The names that all keys have, ascending. -/
def names (k : JoinKeys) : List String := (k.keys.head?.map KeyMap.names).getD []

end JoinKeys

/-- The related rows of many parents. -/
structure BatchRequest where
  entity : String
  field : String
  keys : JoinKeys
  request : ObjectRequest

end LateralSql

/-
  Spatial reference systems: in which of them a geometry column is also stored, under
  the column's name with a suffix, and which of them differ in their label only.
-/
import LateralSql.Json.Record
import LateralSql.Schema.Basic

namespace LateralSql

/-- Suffixes of columns and equivalent identifiers, by identifier. -/
structure CrsRegistry where
  suffixes : List (Srid × String) := []
  equivalents : List (Srid × Srid) := []
  deriving Repr, DecidableEq

namespace CrsRegistry

/-- Sets the value of an identifier. -/
def set {α : Type} (srid : Srid) (a : α) (entries : List (Srid × α)) : List (Srid × α) :=
  (srid, a) :: entries.filter fun e => e.1 ≠ srid

/-- The suffix of the columns that hold geometries in the reference system `srid`. -/
def columnSuffix? (r : CrsRegistry) (srid : Srid) : Option String := r.suffixes.lookup srid

/-- A reference system with the same coordinates as `srid`. -/
def equivalent? (r : CrsRegistry) (srid : Srid) : Option Srid := r.equivalents.lookup srid

/-- Registers a suffix. -/
def withSuffix (r : CrsRegistry) (srid : Srid) (suffix : String) : CrsRegistry :=
  { r with suffixes := set srid suffix r.suffixes }

/-- Registers `equivalent` for `srid`, and `srid` for `equivalent` unless that has one already. -/
def withEquivalent (r : CrsRegistry) (srid equivalent : Srid) : CrsRegistry :=
  let forward := set srid equivalent r.equivalents
  match forward.lookup equivalent with
  | some _ => { r with equivalents := forward }
  | none => { r with equivalents := set equivalent srid forward }

/-- Reads a registry from two maps, both optional. -/
def ofJson? (j : Json) : Option CrsRegistry := do
  let fields ← Json.fields? ["suffixes", "equivalents"] j
  let suffixes ← Json.optional fields "suffixes" [] (Json.intMap? Json.string?)
  let equivalents ← Json.optional fields "equivalents" [] (Json.intMap? Json.int32?)
  return {
    suffixes := suffixes.foldl (fun acc e => set e.1 e.2 acc) []
    equivalents := equivalents.foldl (fun acc e => set e.1 e.2 acc) [] }

end CrsRegistry

end LateralSql

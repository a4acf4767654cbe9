/-
  Well-known text, with an optional prefix `SRID=n;`.

  Keywords are read in any case, and blanks (space, tab, carriage return, line feed) may
  stand around keywords, brackets and commas.  A coordinate has two to four numbers.  Every
  function below recognises one phrase of the grammar at the start of a text and returns
  what follows it.

  * `WellKnownText.shape?` recognises one geometry and tells its kind;
  * `WellKnownText.read?` reads a whole text into its reference system, its kind and the
    text of the geometry without prefix and surrounding blanks.
-/
import LateralSql.Geometry.Basic

namespace LateralSql.WellKnownText

/-- A character that may stand between words. -/
def isBlank (c : Char) : Bool := c = ' ' ∨ c = '\t' ∨ c = '\r' ∨ c = '\n'

/-- The text without the blanks at its start. -/
def skipBlanks (s : List Char) : List Char := s.dropWhile isBlank

/-! ## Words and brackets -/

/-- A word, given in capitals, in any case. -/
def word? : List Char → List Char → Option (List Char)
  | [], s => some s
  | k :: ks, c :: s => if c.toUpper = k then word? ks s else none
  | _ :: _, [] => none

/-- A word with blanks around it. -/
def spacedWord? (w : List Char) (s : List Char) : Option (List Char) :=
  (word? w (skipBlanks s)).map skipBlanks

/-- A bracket, comma or semicolon with blanks around it. -/
def mark? (m : Char) (s : List Char) : Option (List Char) :=
  match skipBlanks s with
  | [] => none
  | c :: rest => if c = m then some (skipBlanks rest) else none

/-! ## Numbers and coordinates -/

/-- The text after an optional sign. -/
def skipSign : List Char → List Char
  | [] => []
  | c :: s => if c = '+' ∨ c = '-' then s else c :: s

/-- At least one digit. -/
def digits? (s : List Char) : Option (List Char) :=
  match s with
  | [] => none
  | c :: rest => if c.isDigit then some (rest.dropWhile Char.isDigit) else none

/-- Digits with an optional point among or after them, or a point and digits. -/
def mantissa? (s : List Char) : Option (List Char) :=
  match digits? s with
  | some ('.' :: rest) => some (rest.dropWhile Char.isDigit)
  | some rest => some rest
  | none =>
    match s with
    | '.' :: rest => digits? rest
    | _ => none

/-- The text after an optional exponent. -/
def skipExponent (s : List Char) : List Char :=
  match s with
  | [] => []
  | c :: rest => if c = 'e' ∨ c = 'E' then (digits? (skipSign rest)).getD s else s

/-- A number with an optional sign and an optional exponent. -/
def number? (s : List Char) : Option (List Char) := (mantissa? (skipSign s)).map skipExponent

/-- Blanks and a number. -/
def nextNumber? (s : List Char) : Option (List Char) :=
  match s with
  | [] => none
  | c :: rest => if isBlank c then number? (skipBlanks rest) else none

/-- The text after up to `n` further numbers. -/
def skipNumbers : Nat → List Char → List Char
  | 0, s => s
  | n + 1, s =>
    match nextNumber? s with
    | some rest => skipNumbers n rest
    | none => s

/-- Two to four numbers with blanks between them. -/
def coordinate? (s : List Char) : Option (List Char) := do
  let s ← number? s
  let s ← nextNumber? s
  return skipNumbers 2 s

/-! ## Lists and bodies -/

/-- The text after further items, each with a comma before it. -/
def skipItems (item : List Char → Option (List Char)) : Nat → List Char → List Char
  | 0, s => s
  | n + 1, s =>
    match (mark? ',' s).bind item with
    | some rest => skipItems item n rest
    | none => s

/-- Items between brackets, at least one, with commas between them. -/
def list? (item : List Char → Option (List Char)) (s : List Char) : Option (List Char) := do
  let s ← mark? '(' s
  let s ← item s
  mark? ')' (skipItems item s.length s)

/-- A coordinate between brackets. -/
def point? (s : List Char) : Option (List Char) := do
  let s ← mark? '(' s
  let s ← coordinate? s
  mark? ')' s

/-- What follows the name of a kind, `nested` recognising the members of a collection. -/
def body? (nested : List Char → Option (List Char)) : GeometryKind → List Char → Option (List Char)
  | .point => point?
  | .lineString => list? coordinate?
  | .polygon | .multiLineString => list? (list? coordinate?)
  | .multiPoint => list? fun s => (point? s).orElse fun _ => coordinate? s
  | .multiPolygon => list? (list? (list? coordinate?))
  | .geometryCollection => list? nested

/-! ## Geometries -/

/-- The keyword of a kind. -/
def keyword (k : GeometryKind) : List Char := k.name.toList.map Char.toUpper

/-- The first kind whose keyword starts the text. -/
def kind? (s : List Char) : Option (GeometryKind × List Char) :=
  GeometryKind.all.findSome? fun k => (word? (keyword k) s).map fun rest => (k, rest)

/-- The text after an optional mark of dimensions. -/
def skipDimensions (s : List Char) : List Char :=
  (([['Z', 'M'], ['Z'], ['M']] : List (List Char)).findSome? fun w => spacedWord? w s).getD s

/-- One geometry, collections nested at most `n` deep. -/
def shape? : Nat → List Char → Option (GeometryKind × List Char)
  | 0, _ => none
  | n + 1, s => do
    let (kind, s) ← kind? (skipBlanks s)
    let s := skipDimensions (skipBlanks s)
    let s ← (spacedWord? ['E', 'M', 'P', 'T', 'Y'] s).orElse fun _ =>
      body? (fun s => (shape? n s).map (·.2)) kind s
    return (kind, s)

/-- A prefix that names the reference system. -/
def srid? (s : List Char) : Option (Srid × List Char) := do
  let s ← spacedWord? ['S', 'R', 'I', 'D', '='] s
  let (sign, rest) : List Char × List Char := match s with
    | '-' :: rest => (['-'], rest)
    | rest => ([], rest)
  let (digits, rest) := Text.spanDigits rest
  guard (digits ≠ [])
  let srid ← Srid.read? (sign ++ digits)
  return (srid, ← mark? ';' rest)

/-- The text without the blanks at its end. -/
def trimEnd (s : List Char) : List Char := (s.reverse.dropWhile isBlank).reverse

/-- Reads a whole text. -/
def read? (s : String) : Option Geometry := do
  let cs := s.toList
  let (srid, cs) : Option Srid × List Char := match srid? cs with
    | some (srid, rest) => (some srid, rest)
    | none => (none, cs)
  let cs := skipBlanks cs
  let (kind, rest) ← shape? (cs.length + 1) cs
  guard (skipBlanks rest = [])
  return ⟨kind, srid, .wkt (String.ofList (trimEnd (cs.take (cs.length - rest.length))))⟩

end LateralSql.WellKnownText

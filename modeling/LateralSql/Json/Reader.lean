/-
  Reading JSON text.

  A document is one value with blanks (space, tab, line feed, carriage return) around
  it.  Integer literals that fit 64 bits, signed or unsigned, stay integers, except
  `-0`; every other number is the nearest double, and one that overflows is refused.  Digits
  after the first `maxDigits` tell only that the number goes on.
  Objects keep repeated keys.  Arrays and objects may be nested at most `maxDepth` deep.

  The readers take the text as a list of characters and return what they leave.
-/
import LateralSql.Json.Basic
import LateralSql.Double.Convert
import LateralSql.Text.Digits

namespace LateralSql.Json

/-- How deep arrays and objects may be nested. -/
def maxDepth : Nat := 127

/-- A character that may stand between two tokens. -/
def isBlank (c : Char) : Bool := c = ' ' ∨ c = '\n' ∨ c = '\t' ∨ c = '\r'

/-- The text without the blanks at its start. -/
def skipBlanks (s : List Char) : List Char := s.dropWhile isBlank

/-! ## Strings -/

/-- The value of a digit in base sixteen. -/
def hexValue? (c : Char) : Option Nat :=
  if c.isDigit then some (c.toNat - 48)
  else if 'a' ≤ c ∧ c ≤ 'f' then some (c.toNat - 87)
  else if 'A' ≤ c ∧ c ≤ 'F' then some (c.toNat - 55)
  else none

/-- Four digits in base sixteen. -/
def hexUnit? : List Char → Option (Nat × List Char)
  | a :: b :: c :: d :: rest => do
    let a ← hexValue? a
    let b ← hexValue? b
    let c ← hexValue? c
    let d ← hexValue? d
    return (((a * 16 + b) * 16 + c) * 16 + d, rest)
  | _ => none

/-- What follows `\u`: a code unit, or two that form one character. A lone surrogate is refused. -/
def unicodeEscape? (s : List Char) : Option (Char × List Char) := do
  let (u, rest) ← hexUnit? s
  if 0xD800 ≤ u ∧ u < 0xDC00 then
    match rest with
    | '\\' :: 'u' :: rest => do
      let (v, rest) ← hexUnit? rest
      if 0xDC00 ≤ v ∧ v < 0xE000 then
        return (Char.ofNat (0x10000 + (u - 0xD800) * 0x400 + (v - 0xDC00)), rest)
      else none
    | _ => none
  else if 0xDC00 ≤ u ∧ u < 0xE000 then none
  else return (Char.ofNat u, rest)

/-- The character of a one-letter escape. -/
def letterEscape? (c : Char) : Option Char :=
  [('"', '"'), ('\\', '\\'), ('/', '/'), ('b', '\x08'), ('f', '\x0c'), ('n', '\n'), ('r', '\r'),
    ('t', '\t')].lookup c

/-- The rest of a string after its opening quote, `acc` holding its characters in reverse. -/
def stringBody : Nat → List Char → List Char → Option (String × List Char)
  | 0, _, _ => none
  | _, _, [] => none
  | fuel + 1, acc, c :: rest =>
    if c = '"' then some (String.ofList acc.reverse, rest)
    else if c = '\\' then
      match rest with
      | 'u' :: rest => do
        let (c, rest) ← unicodeEscape? rest
        stringBody fuel (c :: acc) rest
      | e :: rest => do
        let c ← letterEscape? e
        stringBody fuel (c :: acc) rest
      | [] => none
    else if c.toNat < 0x20 then none
    else stringBody fuel (c :: acc) rest

/-! ## Numbers -/

/-- The digits before the point: no zero stands in front of another digit. -/
def wholePart? (s : List Char) : Option (List Char × List Char) :=
  let (ds, rest) := Text.spanDigits s
  if ds = [] ∨ (ds.head? = some '0' ∧ ds.length ≠ 1) then none else some (ds, rest)

/-- The digits after a point, which must follow it. -/
def fraction? : List Char → Option (Option (List Char) × List Char)
  | '.' :: s =>
    let (ds, rest) := Text.spanDigits s
    if ds = [] then none else some (some ds, rest)
  | s => some (none, s)

/-- An exponent: a mark, perhaps a sign, and digits. -/
def exponent? : List Char → Option (Option Int × List Char)
  | [] => some (none, [])
  | c :: s =>
    if c = 'e' ∨ c = 'E' then
      let (minus, s) : Bool × List Char := match s with
        | '-' :: s => (true, s)
        | '+' :: s => (false, s)
        | s => (false, s)
      let (ds, rest) := Text.spanDigits s
      if ds = [] then none
      else
        let n : Int := Text.digitsValue ds
        some (some (if minus then -n else n), rest)
    else some (none, c :: s)

/-- How many digits of a literal are looked at. A point halfway between two doubles has no more. -/
def maxDigits : Nat := 768

/-- The double nearest to a number given by its digits and an exponent. If there are more than
    `maxDigits`, a digit 1 stands for all further ones, whatever they are. -/
def nearest? (digits : List Char) (exponent : Int) : Option Float :=
  let ds := digits.dropWhile (· = '0')
  if ds.length ≤ maxDigits then Double.ofScientific? (Text.digitsValue ds) exponent
  else
    Double.ofScientific? (10 * Text.digitsValue (ds.take maxDigits) + 1)
      (exponent + ds.length - (maxDigits + 1 : Nat))

/-- The digits without the zeros at their end. -/
def trimZeros (ds : List Char) : List Char := (ds.reverse.dropWhile (· = '0')).reverse

/-- The number of a literal, given by its sign, its digits and its exponent. -/
def ofLiteral? (minus : Bool) (whole : List Char) (fraction : Option (List Char))
    (exponent : Option Int) : Option Json :=
  let n := Text.digitsValue whole
  let float (x : Float) : Json := .float (if minus then -x else x)
  match fraction, exponent with
  | none, none =>
    if minus then
      if n = 0 then some (.float (-0.0))
      else if Int64.minValue.toInt ≤ -n then some (.int (-n))
      else (nearest? whole 0).map float
    else if n < UInt64.size then some (.int n)
    else (nearest? whole 0).map float
  | fraction, exponent =>
    let fraction := trimZeros (fraction.getD [])
    (nearest? (whole ++ fraction) (exponent.getD 0 - fraction.length)).map float

/-- A number. -/
def number? (s : List Char) : Option (Json × List Char) := do
  let (minus, s) : Bool × List Char := match s with
    | '-' :: s => (true, s)
    | s => (false, s)
  let (whole, s) ← wholePart? s
  let (fraction, s) ← fraction? s
  let (exponent, s) ← exponent? s
  let j ← ofLiteral? minus whole fraction exponent
  return (j, s)

/-! ## Documents -/

/-- The rest of a word after its first letter. -/
def word? (letters : List Char) (j : Json) (s : List Char) : Option (Json × List Char) :=
  if letters.isPrefixOf s then some (j, s.drop letters.length) else none

/-- A key and its colon, with blanks before both. -/
def key? (s : List Char) : Option (String × List Char) :=
  match skipBlanks s with
  | '"' :: s => do
    let (key, s) ← stringBody (s.length + 1) [] s
    match skipBlanks s with
    | ':' :: s => some (key, s)
    | _ => none
  | _ => none

mutual

/-- A value with blanks before it, at most `depth` levels deep. -/
def value? : Nat → Nat → List Char → Option (Json × List Char)
  | 0, _, _ => none
  | fuel + 1, depth, s =>
    match skipBlanks s with
    | 'n' :: s => word? ['u', 'l', 'l'] .null s
    | 't' :: s => word? ['r', 'u', 'e'] (.bool true) s
    | 'f' :: s => word? ['a', 'l', 's', 'e'] (.bool false) s
    | '"' :: s => do
      let (text, s) ← stringBody (s.length + 1) [] s
      return (.str text, s)
    | '[' :: s =>
      match depth with
      | 0 => none
      | depth + 1 =>
        match skipBlanks s with
        | ']' :: s => some (.arr [], s)
        | s => items? fuel depth [] s
    | '\x7b' :: s =>
      match depth with
      | 0 => none
      | depth + 1 =>
        match skipBlanks s with
        | '\x7d' :: s => some (.obj [], s)
        | s => members? fuel depth [] s
    | s => number? s

/-- The items of an array up to its closing bracket, `acc` holding those read in reverse. -/
def items? : Nat → Nat → List Json → List Char → Option (Json × List Char)
  | 0, _, _, _ => none
  | fuel + 1, depth, acc, s => do
    let (j, s) ← value? fuel depth s
    match skipBlanks s with
    | ',' :: s => items? fuel depth (j :: acc) s
    | ']' :: s => some (.arr (j :: acc).reverse, s)
    | _ => none

/-- The members of an object up to its closing brace, `acc` holding those read in reverse. -/
def members? : Nat → Nat → List (String × Json) → List Char → Option (Json × List Char)
  | 0, _, _, _ => none
  | fuel + 1, depth, acc, s => do
    let (key, s) ← key? s
    let (j, s) ← value? fuel depth s
    match skipBlanks s with
    | ',' :: s => members? fuel depth ((key, j) :: acc) s
    | '\x7d' :: s => some (.obj ((key, j) :: acc).reverse, s)
    | _ => none

end

/-! ## Whole texts -/

/-- Reads a whole text as one document, keeping repeated keys. -/
def read? (s : String) : Option Json :=
  let cs := s.toList
  match value? (cs.length + 1) maxDepth cs with
  | some (j, rest) => if skipBlanks rest = [] then some j else none
  | none => none

/-- Reads a whole text as one document with one member per key. -/
def parse? (s : String) : Option Json := (read? s).map collapse

end LateralSql.Json

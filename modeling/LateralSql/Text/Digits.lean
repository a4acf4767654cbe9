/-
  Decimal digits as characters.

  * `digitsValue` reads a run of digits, most significant first;
  * `padded w n` writes the last `w` digits of `n`, with leading zeros;
  * `spanDigits` splits a text after its longest run of digits.
-/

namespace LateralSql.Text

/-- The number a digit stands for. -/
def digitValue (c : Char) : Nat := c.toNat - 48

/-- The number written by a run of digits, most significant first. -/
def digitsValue (ds : List Char) : Nat := ds.foldl (fun n c => 10 * n + digitValue c) 0

/-- The digit for a number below ten. -/
def digitChar (n : Nat) : Char := Char.ofNat (48 + n)

/-- Exactly `w` digits: those of `n` modulo `10 ^ w`. -/
def padded : Nat → Nat → List Char
  | 0, _ => []
  | w + 1, n => padded w (n / 10) ++ [digitChar (n % 10)]

/-- The longest run of digits at the start of a text, and what follows it. -/
def spanDigits (s : List Char) : List Char × List Char :=
  (s.takeWhile Char.isDigit, s.dropWhile Char.isDigit)

/-- The first `w` characters as a number, if they are all digits. -/
def digits? (w : Nat) (s : List Char) : Option (Nat × List Char) :=
  let ds := s.take w
  if ds.length = w ∧ ds.all Char.isDigit then some (digitsValue ds, s.drop w) else none

/-- An integer in base ten: an optional sign out of `signs` and at least one digit. -/
def integer? (signs : List Char) : List Char → Option Int
  | [] => none
  | c :: cs =>
    let ds := if c ∈ signs then cs else c :: cs
    if ds ≠ [] ∧ ds.all Char.isDigit then
      some (if c = '-' then -(digitsValue ds : Int) else digitsValue ds)
    else none

/-- An integer with an optional sign, whose digits may be grouped by underscores after the first
    one. -/
def groupedInteger? : List Char → Option Int
  | [] => none
  | c :: cs =>
    let ds := if c = '+' ∨ c = '-' then cs else c :: cs
    if ds.head? = some '_' then none else integer? ['+', '-'] ((c :: cs).filter (· ≠ '_'))

end LateralSql.Text

/-
  Decimal numbers `digits * 10 ^ (-scale)`.

  The scale is part of a number's text (`1.50`), not of its value: `Decimal.beq`
  and `Decimal.compare` are those of the rational numbers, `1.5 = 1.50`.

  * `read?` reads `[+-]digits[.digits][e[+-]digits]`, with underscores among the digits;
  * `text` writes all digits of the scale, never an exponent;
  * `normalized` drops the zeros at the end of the digits.
-/
import LateralSql.Text.Digits

namespace LateralSql

/-- The number `digits * 10 ^ (-scale)`. -/
structure Decimal where
  digits : Int
  scale : Int := 0
  deriving Repr, DecidableEq

namespace Decimal

/-! ## Value -/

/-- The digits of `d` at the scale `s`, for `d.scale ≤ s`. -/
def digitsAt (d : Decimal) (s : Int) : Int := d.digits * Nat.pow 10 (s - d.scale).toNat

/-- The numeric order. -/
def compare (a b : Decimal) : Ordering :=
  let s := max a.scale b.scale
  Ord.compare (a.digitsAt s) (b.digitsAt s)

/-- Numeric equality. -/
def beq (a b : Decimal) : Bool :=
  if a.scale ≤ b.scale then a.digitsAt b.scale == b.digits else b.digitsAt a.scale == a.digits

instance : BEq Decimal := ⟨beq⟩

instance : Ord Decimal := ⟨compare⟩

/-! ## Text -/

/-- All digits of the scale are written; a negative scale appends zeros. -/
def text (d : Decimal) : String :=
  let ds := toString d.digits.natAbs
  let sign := if d.digits < 0 then "-" else ""
  if d.scale ≤ 0 then sign ++ ds ++ String.ofList (List.replicate (-d.scale).toNat '0')
  else
    let scale := d.scale.toNat
    if ds.length ≤ scale then
      sign ++ "0." ++ String.ofList (List.replicate (scale - ds.length) '0') ++ ds
    else
      let cs := ds.toList
      sign ++ String.ofList (cs.take (cs.length - scale)) ++ "." ++
        String.ofList (cs.drop (cs.length - scale))

/-- Drops up to `n` zeros at the end of the digits `m`, counting them. -/
def dropZeros : Nat → Nat → Nat × Nat
  | 0, m => (m, 0)
  | n + 1, m =>
    if m % 10 = 0 then
      let (r, k) := dropZeros n (m / 10)
      (r, k + 1)
    else (m, 0)

/-- The same number without zeros at the end of its digits; zero has scale `0`. -/
def normalized (d : Decimal) : Decimal :=
  if d.digits = 0 then ⟨0, 0⟩
  else
    let (m, k) := dropZeros (toString d.digits.natAbs).length d.digits.natAbs
    ⟨if d.digits < 0 then -m else m, d.scale - k⟩

/-- An exponent of 64 bits: a plus or none, then a sign or none, and digits. -/
def exponent? (s : List Char) : Option Int := do
  let n ← Text.integer? ['+', '-'] (if s.head? = some '+' then s.tail else s)
  guard (Int64.minValue.toInt ≤ n ∧ n ≤ Int64.maxValue.toInt)
  return n

/-- Reads `[+-]digits[.digits][e[+-]digits]`. Every character after the point counts for the scale,
    a sign and the underscores among them. -/
def read? (s : String) : Option Decimal := do
  let cs := s.toList
  let base := cs.takeWhile fun c => c ≠ 'e' ∧ c ≠ 'E'
  let exponent ← match cs.dropWhile fun c => c ≠ 'e' ∧ c ≠ 'E' with
    | [] => some 0
    | _ :: e => exponent? e
  let lead := base.takeWhile (· ≠ '.')
  let trail := (base.dropWhile (· ≠ '.')).drop 1
  let digits ← Text.groupedInteger? (lead ++ trail)
  return ⟨digits, trail.length - exponent⟩

end Decimal

end LateralSql

/-
  Between doubles and decimals.

  * `toDecimal` rounds the exact value of a double to sixteen significant digits, a half
    to the even neighbour;
  * `ofDecimal` multiplies the double nearest to the digits by a power of ten computed in
    doubles, so it is not always the nearest double: `0.3` becomes `0.30000000000000004`;
  * `ofScientific?` is the nearest double to a decimal, if it is finite.
-/
import LateralSql.Double.Binary
import LateralSql.Decimal

namespace LateralSql.Double

/-- The quotient rounded to the nearest integer, a half to the even neighbour. -/
def roundDiv (num den : Nat) : Nat :=
  let q := num / den
  match compare (2 * (num % den)) den with
  | .lt => q
  | .gt => q + 1
  | .eq => if q % 2 = 0 then q else q + 1

/-- The number of significant digits a double is read with. -/
def significantDigits : Nat := 16

/-- A finite double to sixteen significant digits. -/
def toDecimal (x : Float) : Decimal :=
  let b := Binary.ofBits x.toBits
  if b.mantissa = 0 then ⟨0, 0⟩
  else
    let g := b.magnitude - (significantDigits : Int)
    let (num, den) := b.overGrid g
    let m := roundDiv num den
    Decimal.normalized ⟨if isNegative x then -(m : Int) else m, -g⟩

/-- Squares `x` along the bits of `n`, multiplying what stands for a set bit into `r`. -/
def powerLoop : Nat → Nat → Float → Float → Float
  | 0, _, _, r => r
  | fuel + 1, n, x, r =>
    let r := if n % 2 = 1 then r * x else r
    if n / 2 = 0 then r else powerLoop fuel (n / 2) (x * x) r

/-- `x ^ n` by repeated squaring; a negative exponent inverts the result. -/
def power (x : Float) (n : Int) : Float :=
  let r := powerLoop (n.natAbs.log2 + 1) n.natAbs x 1.0
  if n < 0 then 1.0 / r else r

/-- Whether one of the low `k` bits of the lowest `words` words of 64 bits is set. -/
def lowBits (k : Nat) : Nat → Nat → Bool
  | 0, _ => false
  | words + 1, n => n % Nat.pow 2 k ≠ 0 || lowBits k words (n / UInt64.size)

/-- The double of a natural number: its top 64 bits, the lowest set if there are bits below them,
    scaled back. Of a word below the top one, only as many low bits are looked at as the top one
    has. -/
def ofNat (n : Nat) : Float :=
  let dropped := n.log2 + 1 - 64
  let top := n >>> dropped
  let sticky := if lowBits (n.log2 % 64 + 1) (n.log2 / 64) n then top ||| 1 else top
  if 1024 < dropped then 1.0 / 0.0
  else sticky.toUInt64.toFloat * power 2.0 dropped

/-- The double of an integer. -/
def ofInt (n : Int) : Float := if n < 0 then -(ofNat n.natAbs) else ofNat n.natAbs

/-- The digits times a power of ten, both as doubles. The exponent has 32 bits. -/
def ofDecimal (d : Decimal) : Float :=
  ofInt d.digits * power 10.0 (Int32.ofInt (-d.scale)).toInt

/-- The double nearest to `digits * 10 ^ exponent`, unless that overflows. -/
def ofScientific? (digits : Nat) (exponent : Int) : Option Float :=
  let size : Int := (toString digits).length
  if digits = 0 then some 0.0
  else if 400 < exponent + size then none
  else if exponent + size < -400 then some 0.0
  else
    let x := Float.ofScientific digits (exponent < 0) exponent.natAbs
    if x.isFinite then some x else none

end LateralSql.Double

/-
  The exact value of a double, `mantissa * 2 ^ exponent`, and its place among the
  powers of ten.

  All arithmetic is on natural numbers: a decimal grid `10 ^ g` divides the value as
  the fraction `num / den` (`Binary.overGrid`).
-/

namespace LateralSql.Double

/-- The magnitude of a finite double, `mantissa * 2 ^ exponent`. -/
structure Binary where
  mantissa : Nat
  exponent : Int
  /-- The double below is half as far away as the double above. -/
  narrowBelow : Bool
  deriving Repr, DecidableEq

/-- Whether the sign bit is set, also of a zero. -/
def isNegative (x : Float) : Bool := x.toBits >>> 63 == 1

namespace Binary

/-- The magnitude of the finite double with the given bits. -/
def ofBits (bits : UInt64) : Binary :=
  let e := ((bits >>> 52) &&& 0x7FF).toNat
  let f := (bits &&& 0xFFFFFFFFFFFFF).toNat
  if e = 0 then ⟨f, -1074, false⟩ else ⟨0x10000000000000 + f, (e : Int) - 1075, f = 0 ∧ 1 < e⟩

/-- `(num, den)` with `num / den` the value counted in units of `10 ^ g`. -/
def overGrid (x : Binary) (g : Int) : Nat × Nat :=
  (x.mantissa * Nat.pow 2 x.exponent.toNat * Nat.pow 10 (-g).toNat,
   Nat.pow 2 (-x.exponent).toNat * Nat.pow 10 g.toNat)

/-- Whether the value is below `10 ^ k`. -/
def below (x : Binary) (k : Int) : Bool :=
  let (num, den) := x.overGrid k
  num < den

/-- The least `k` with the value below `10 ^ k`: the binary logarithm gives it up to one. -/
def magnitude (x : Binary) : Int :=
  let guess := ((x.mantissa.log2 : Int) + x.exponent) * 30103 / 100000
  (([guess - 1, guess, guess + 1]).find? x.below).getD (guess + 2)

end Binary

end LateralSql.Double

/-
  The fewest decimal digits that read back to a double.

  The reals that round to a double form an interval, with its ends iff the mantissa is
  even (`Binary.readsBack`).  `Binary.shortest` tries the decimal grids from coarse to
  fine, one more digit at a time, and on each the two neighbours of the value: the first
  grid with a neighbour in the interval wins, and of two neighbours the nearer one, on a
  tie the even one.
-/
import LateralSql.Double.Binary
import LateralSql.Decimal

namespace LateralSql.Double

namespace Binary

/-- Compares `a * 10 ^ g` with `n * 2 ^ j`. -/
def compareScaled (a : Nat) (g : Int) (n : Nat) (j : Int) : Ordering :=
  compare (a * Nat.pow 10 g.toNat * Nat.pow 2 (-j).toNat)
    (n * Nat.pow 2 j.toNat * Nat.pow 10 (-g).toNat)

/-- Whether `a * 10 ^ g` lies among the reals that round to the value, to nearest with ties to
    even. -/
def readsBack (x : Binary) (g : Int) (a : Nat) : Bool :=
  let lower := 4 * x.mantissa - (if x.narrowBelow then 1 else 2)
  let upper := 4 * x.mantissa + 2
  let ends := x.mantissa % 2 = 0
  let l := compareScaled a g lower (x.exponent - 2)
  let u := compareScaled a g upper (x.exponent - 2)
  (l = .gt ∨ ends ∧ l = .eq) ∧ (u = .lt ∨ ends ∧ u = .eq)

/-- The point of the grid `10 ^ g` that stands for the value, if one of its neighbours reads back.
    -/
def onGrid (x : Binary) (g : Int) : Option Nat :=
  let (num, den) := x.overGrid g
  let a := num / den
  match x.readsBack g a, x.readsBack g (a + 1) with
  | true, true =>
    match compare (2 * (num % den)) den with
    | .lt => some a
    | .gt => some (a + 1)
    | .eq => some (if a % 2 = 0 then a else a + 1)
  | true, false => some a
  | false, true => some (a + 1)
  | false, false => none

/-- The shortest decimal that reads back, `(digits, exponent)` for `digits * 10 ^ exponent`, without
    zeros at the end. Seventeen digits always suffice; the exact value stands in for the rest. -/
def shortest (x : Binary) : Nat × Int :=
  let k := x.magnitude
  let found := (List.range 17).findSome? fun n =>
    let g := k - (n + 1 : Nat)
    (x.onGrid g).map fun a => (a, g)
  let (a, g) := found.getD
    (x.mantissa * Nat.pow 2 x.exponent.toNat * Nat.pow 5 (-x.exponent).toNat, min x.exponent 0)
  let (m, z) := Decimal.dropZeros (toString a).length a
  (m, g + z)

end Binary

end LateralSql.Double

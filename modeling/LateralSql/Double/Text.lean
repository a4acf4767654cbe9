/-
  The text of a double in JSON: the shortest digits that read back, laid out
  positionally for exponents from `-5` to `15` with at least one decimal, otherwise
  with a signed exponent (`1e-6`, `1.5e+300`).
-/
import LateralSql.Double.Shortest

namespace LateralSql.Double

/-- Exponents `e` of the leading digit with `plainFrom ≤ e < plainBelow` are written positionally.
    -/
structure Layout where
  plainFrom : Int
  plainBelow : Int

/-- The layout of numbers in JSON text. -/
def jsonLayout : Layout := ⟨-5, 16⟩

/-- Lays out `digits * 10 ^ exponent`, for digits without zeros at the end. -/
def Layout.write (n : Layout) (digits : Nat) (exponent : Int) : String :=
  let ds := (toString digits).toList
  let e := exponent + ds.length - 1
  if n.plainFrom ≤ e ∧ e < n.plainBelow then
    if e < 0 then
      "0." ++ String.ofList (List.replicate (-e - 1).toNat '0' ++ ds)
    else
      let whole := e.toNat + 1
      if ds.length ≤ whole then
        String.ofList (ds ++ List.replicate (whole - ds.length) '0') ++ ".0"
      else
        String.ofList (ds.take whole) ++ "." ++ String.ofList (ds.drop whole)
  else
    let fraction := ds.drop 1
    String.ofList (ds.take 1) ++ (if fraction = [] then "" else "." ++ String.ofList fraction) ++
      "e" ++ (if e < 0 then "-" else "+") ++ toString e.natAbs

/-- The text of a finite double. -/
def text (x : Float) : String :=
  let sign := if isNegative x then "-" else ""
  let b := Binary.ofBits x.toBits
  if b.mantissa = 0 then sign ++ "0.0"
  else
    let (digits, exponent) := b.shortest
    sign ++ jsonLayout.write digits exponent

end LateralSql.Double

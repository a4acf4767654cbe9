/-
  Values from JSON documents and from texts.

  An integer of 64 signed bits stays an integer; every other number is read through a
  double, as the decimal of its first sixteen digits.
-/
import LateralSql.Value.Basic
import LateralSql.Json.Basic
import LateralSql.Double.Convert

namespace LateralSql

/-- Why something cannot be made into a value. -/
inductive ConversionError where
  | number
  | dateTime
  deriving Repr, DecidableEq

/-- The message of an error. -/
def ConversionError.message : ConversionError → String
  | .number => "Unable to convert JSON number into QueryValue::Float."
  | .dateTime => "Unable to convert RFC 3339 string into QueryValue::DateTime."

namespace Value

/-- The decimal of a double. -/
def ofFloat (x : Float) : Except ConversionError Value :=
  if x.isFinite then .ok (.decimal (Double.toDecimal x)) else .error .number

/-- The value of an integer. -/
def ofInt (n : Int) : Except ConversionError Value :=
  if Int64.minValue.toInt ≤ n ∧ n ≤ Int64.maxValue.toInt then .ok (.int (Int64.ofInt n))
  else ofFloat (Double.ofInt n)

mutual

/-- The value of a JSON document. -/
def ofJson : Json → Except ConversionError Value
  | .null => .ok .null
  | .bool b => .ok (.boolean b)
  | .int n => ofInt n
  | .float x => ofFloat x
  | .str s => .ok (.string s)
  | .arr items => return .list (← ofJsonAll items)
  | .obj members => return .object (← ofJsonMembers members)
termination_by structural j => j

/-- The values of JSON documents. -/
def ofJsonAll : List Json → Except ConversionError (List Value)
  | [] => .ok []
  | j :: js => return (← ofJson j) :: (← ofJsonAll js)
termination_by structural js => js

/-- The values of the members of an object, under their keys. -/
def ofJsonMembers : List (String × Json) → Except ConversionError (List (String × Value))
  | [] => .ok []
  | (k, j) :: rest => return (k, ← ofJson j) :: (← ofJsonMembers rest)
termination_by structural members => members

end

/-- The date-time of a text. -/
def ofDateTimeText (s : String) : Except ConversionError Value :=
  match DateTime.read? s with
  | some t => .ok (.dateTime t)
  | none => .error .dateTime

end Value

end LateralSql

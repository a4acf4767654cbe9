/-
  Date-times with an offset from UTC, as clients write them:
  `2020-02-29T23:59:60.123456+05:30`.

  * `DateTime.read?` accepts the date, a `T`, `t` or blank, the time with an optional
    fraction, and `Z`, `z` or a signed offset; the calendar is checked, and nothing may
    follow.  Second 60 is a leap second, in any minute.
  * `DateTime.text` writes the time in its own offset, truncated to milliseconds.
  * Equality and order are those of the instant (`DateTime.instant`), to the nanosecond; a
    leap second comes after the second 59 of its minute and before the next one.
-/
import LateralSql.Text.Digits

namespace LateralSql

/-! ## Calendar -/

namespace Calendar

/-- The year has a 29th of February. -/
def isLeap (year : Nat) : Bool := year % 4 = 0 ∧ (year % 100 ≠ 0 ∨ year % 400 = 0)

/-- The lengths of the months of a year. -/
def monthLengths (year : Nat) : List Nat :=
  [31, if isLeap year then 29 else 28, 31, 30, 31, 30, 31, 31, 30, 31, 30, 31]

/-- Whether the calendar has the day. -/
def isDate (year month day : Nat) : Bool :=
  1 ≤ month ∧ month ≤ 12 ∧ 1 ≤ day ∧ day ≤ ((monthLengths year)[month - 1]?).getD 0

/-- The number of days from the first day of year 0 to the given day. -/
def dayNumber (year month day : Nat) : Nat :=
  365 * year + (year + 3) / 4 - (year + 99) / 100 + (year + 399) / 400 +
    ((monthLengths year).take (month - 1)).foldl (· + ·) 0 + (day - 1)

end Calendar

/-! ## Date-times -/

/-- A date and time of day at an offset from UTC, in minutes to the east. -/
structure DateTime where
  year : Nat
  month : Nat
  day : Nat
  hour : Nat
  minute : Nat
  /-- Up to 60, which is a leap second. -/
  second : Nat
  nano : Nat
  offset : Int
  deriving Repr, DecidableEq

namespace DateTime

/-- A point in time: seconds of UTC, and nanoseconds, of which a leap second has a second billion.
    -/
structure Instant where
  seconds : Int
  nanos : Nat
  deriving Repr, DecidableEq

/-- The point in time that a date-time is, whatever its offset. -/
def instant (t : DateTime) : Instant where
  seconds := 86400 * (Calendar.dayNumber t.year t.month t.day : Int) + 3600 * t.hour +
    60 * t.minute + min t.second 59 - 60 * t.offset
  nanos := t.nano + if t.second = 60 then 1000000000 else 0

/-- The order of instants. -/
def compare (a b : DateTime) : Ordering :=
  (Ord.compare a.instant.seconds b.instant.seconds).then
    (Ord.compare a.instant.nanos b.instant.nanos)

/-- Equality of instants. -/
def beq (a b : DateTime) : Bool := a.instant = b.instant

instance : BEq DateTime := ⟨beq⟩

instance : Ord DateTime := ⟨compare⟩

/-! ## Text -/

/-- `Z`, or a sign with hours and minutes. -/
def offsetText (offset : Int) : List Char :=
  if offset = 0 then ['Z']
  else
    (if offset < 0 then '-' else '+') ::
      (Text.padded 2 (offset.natAbs / 60) ++ ':' :: Text.padded 2 (offset.natAbs % 60))

/-- The characters of a date-time's text. -/
def chars (t : DateTime) : List Char :=
  Text.padded 4 t.year ++ '-' :: Text.padded 2 t.month ++ '-' :: Text.padded 2 t.day ++
    'T' :: Text.padded 2 t.hour ++ ':' :: Text.padded 2 t.minute ++ ':' :: Text.padded 2 t.second ++
    '.' :: Text.padded 3 (t.nano / 1000000) ++ offsetText t.offset

/-- `2020-01-01T00:00:00.000Z`, in the date-time's own offset. -/
def text (t : DateTime) : String := String.ofList t.chars

/-! ## Reading -/

/-- The text after the character `c`. -/
def after? (c : Char) : List Char → Option (List Char)
  | [] => none
  | c' :: rest => if c' = c then some rest else none

/-- The nanoseconds of an optional fraction. Digits after the ninth count for nothing. -/
def fraction? : List Char → Option (Nat × List Char)
  | '.' :: s =>
    let (ds, rest) := Text.spanDigits s
    if ds = [] then none
    else some (Text.digitsValue (ds.take 9) * Nat.pow 10 (9 - ds.length), rest)
  | s => some (0, s)

/-- The minus signs of an offset: the hyphen and the typographic minus. -/
def isMinus (c : Char) : Bool := c = '-' ∨ c = '−'

/-- An offset, which ends the text. -/
def offset? : List Char → Option Int
  | ['Z'] => some 0
  | ['z'] => some 0
  | c :: s => do
    guard (c = '+' ∨ isMinus c)
    let (hours, s) ← Text.digits? 2 s
    let s ← after? ':' s
    let (minutes, s) ← Text.digits? 2 s
    guard (s = [] ∧ hours ≤ 23 ∧ minutes ≤ 59)
    let n : Int := 60 * hours + minutes
    return if c = '+' then n else -n
  | [] => none

/-- What may stand between a date and a time. -/
def separated? : List Char → Option (List Char)
  | 'T' :: s => some s
  | 't' :: s => some s
  | ' ' :: s => some s
  | _ => none

/-- Reads the characters of a date-time. -/
def readChars? (s : List Char) : Option DateTime := do
  let (year, s) ← Text.digits? 4 s
  let s ← after? '-' s
  let (month, s) ← Text.digits? 2 s
  let s ← after? '-' s
  let (day, s) ← Text.digits? 2 s
  let s ← separated? s
  let (hour, s) ← Text.digits? 2 s
  let s ← after? ':' s
  let (minute, s) ← Text.digits? 2 s
  let s ← after? ':' s
  let (second, s) ← Text.digits? 2 s
  let (nano, s) ← fraction? s
  let offset ← offset? s
  guard (Calendar.isDate year month day ∧ hour ≤ 23 ∧ minute ≤ 59 ∧ second ≤ 60)
  return ⟨year, month, day, hour, minute, second, nano, offset⟩

/-- Reads a whole text as a date-time. -/
def read? (s : String) : Option DateTime := readChars? s.toList

end DateTime

end LateralSql

/-
  Passing over JSON values: their syntax is checked, their contents are not.

  What cannot be represented is no fault here: a number beyond the doubles, an escape of
  half a surrogate pair, or arrays and objects of any depth.

  `skim?` takes the text as a list of characters and returns what follows the value.
-/
import LateralSql.Json.Reader

namespace LateralSql.Json

/-- The text after a string whose opening quote has been read. -/
def skimString? : List Char → Option (List Char)
  | [] => none
  | '"' :: s => some s
  | '\\' :: 'u' :: a :: b :: c :: d :: s =>
    if [a, b, c, d].all fun h => (hexValue? h).isSome then skimString? s else none
  | '\\' :: e :: s => if (letterEscape? e).isSome then skimString? s else none
  | c :: s => if c.toNat < 0x20 then none else skimString? s

/-- The text after a number. -/
def skimNumber? (s : List Char) : Option (List Char) := do
  let s := match s with
    | '-' :: s => s
    | s => s
  let (_, s) ← wholePart? s
  let (_, s) ← fraction? s
  let (_, s) ← exponent? s
  return s

/-- The text after a key and its colon. -/
def skimKey? (s : List Char) : Option (List Char) :=
  match skipBlanks s with
  | '"' :: s => do
    match skipBlanks (← skimString? s) with
    | ':' :: s => some s
    | _ => none
  | _ => none

mutual

/-- The text after a value with blanks before it. -/
def skim? : Nat → List Char → Option (List Char)
  | 0, _ => none
  | fuel + 1, s =>
    match skipBlanks s with
    | 'n' :: s => (word? ['u', 'l', 'l'] .null s).map (·.2)
    | 't' :: s => (word? ['r', 'u', 'e'] .null s).map (·.2)
    | 'f' :: s => (word? ['a', 'l', 's', 'e'] .null s).map (·.2)
    | '"' :: s => skimString? s
    | '[' :: s =>
      match skipBlanks s with
      | ']' :: s => some s
      | s => skimItems? fuel s
    | '\x7b' :: s =>
      match skipBlanks s with
      | '\x7d' :: s => some s
      | s => skimMembers? fuel s
    | s => skimNumber? s

/-- The text after the items of an array and its closing bracket. -/
def skimItems? : Nat → List Char → Option (List Char)
  | 0, _ => none
  | fuel + 1, s => do
    match skipBlanks (← skim? fuel s) with
    | ',' :: s => skimItems? fuel s
    | ']' :: s => some s
    | _ => none

/-- The text after the members of an object and its closing brace. -/
def skimMembers? : Nat → List Char → Option (List Char)
  | 0, _ => none
  | fuel + 1, s => do
    match skipBlanks (← skim? fuel (← skimKey? s)) with
    | ',' :: s => skimMembers? fuel s
    | '\x7d' :: s => some s
    | _ => none

end

end LateralSql.Json

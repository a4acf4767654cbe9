/-
  Values: what a request carries into a query and a result row carries out of it.

  `Value.compare` orders values of one kind by what they mean (texts by code point,
  numbers numerically, date-times by instant, lists and objects lexicographically) and
  values of different kinds by `Value.rank`.  `Value.beq` is the equality it agrees with:
  decimals that differ only in scale are equal, and so are date-times of one instant.
-/
import LateralSql.Decimal
import LateralSql.DateTime

namespace LateralSql

/-- A value. Objects are lists of members, in order; a key may occur twice. -/
inductive Value where
  | string (s : String)
  | boolean (b : Bool)
  | int (n : Int64)
  | list (items : List Value)
  /-- The text of a JSON document, not read. -/
  | json (text : String)
  | object (members : List (String × Value))
  | null
  | dateTime (t : DateTime)
  | decimal (d : Decimal)
  deriving Inhabited, Repr

namespace Value

/-- The value is null. -/
def isNull : Value → Bool
  | .null => true
  | _ => false

/-- The members of an object. -/
def members? : Value → Option (List (String × Value))
  | .object members => some members
  | _ => none

/-- The first member of an object with the given key. -/
def get? (v : Value) (key : String) : Option Value := v.members?.bind (·.lookup key)

/-! ## Order and equality -/

/-- The place of a value's kind in the order of kinds. -/
def rank : Value → Nat
  | .string _ => 0
  | .boolean _ => 1
  | .int _ => 2
  | .list _ => 3
  | .json _ => 4
  | .object _ => 5
  | .null => 6
  | .dateTime _ => 7
  | .decimal _ => 8

/-- The order of truth values, false first. -/
def compareBool (a b : Bool) : Ordering := Ord.compare a.toNat b.toNat

/-- The order of texts by code point, which is that of their encoded bytes. -/
def compareText (a b : String) : Ordering := compareOfLessAndEq a b

mutual

/-- The order of values. -/
def compare : Value → Value → Ordering
  | .string a, .string b => compareText a b
  | .boolean a, .boolean b => compareBool a b
  | .int a, .int b => Ord.compare a.toInt b.toInt
  | .list a, .list b => compareLists a b
  | .json a, .json b => compareText a b
  | .object a, .object b => compareMembers a b
  | .null, .null => .eq
  | .dateTime a, .dateTime b => a.compare b
  | .decimal a, .decimal b => a.compare b
  | a, b => Ord.compare a.rank b.rank
termination_by structural v => v

/-- Lexicographic, a shorter list before its extensions. -/
def compareLists : List Value → List Value → Ordering
  | [], [] => .eq
  | [], _ :: _ => .lt
  | _ :: _, [] => .gt
  | a :: as, b :: bs => (compare a b).then (compareLists as bs)
termination_by structural vs => vs

/-- Lexicographic, members by key and then by value. -/
def compareMembers : List (String × Value) → List (String × Value) → Ordering
  | [], [] => .eq
  | [], _ :: _ => .lt
  | _ :: _, [] => .gt
  | (k, a) :: as, (l, b) :: bs => ((compareText k l).then (compare a b)).then (compareMembers as bs)
termination_by structural members => members

end

mutual

/-- Equality of values. -/
def beq : Value → Value → Bool
  | .string a, .string b => a == b
  | .boolean a, .boolean b => a == b
  | .int a, .int b => a == b
  | .list a, .list b => beqLists a b
  | .json a, .json b => a == b
  | .object a, .object b => beqMembers a b
  | .null, .null => true
  | .dateTime a, .dateTime b => a.beq b
  | .decimal a, .decimal b => a.beq b
  | _, _ => false
termination_by structural v => v

/-- Equality of lists, item by item. -/
def beqLists : List Value → List Value → Bool
  | [], [] => true
  | a :: as, b :: bs => beq a b && beqLists as bs
  | _, _ => false
termination_by structural vs => vs

/-- Equality of members, in their order. -/
def beqMembers : List (String × Value) → List (String × Value) → Bool
  | [], [] => true
  | (k, a) :: as, (l, b) :: bs => k == l && beq a b && beqMembers as bs
  | _, _ => false
termination_by structural members => members

end

instance : BEq Value := ⟨beq⟩

instance : Ord Value := ⟨compare⟩

end Value

end LateralSql

/-
  The order of values: swapping two values turns their order around, and those that it does not tell
  apart are the equal ones.
-/
import LateralSql.Proofs.ValueEquality

namespace LateralSql

theorem Decimal.compare_swap (a b : Decimal) : (a.compare b).swap = b.compare a := by
  rw [Decimal.compare, Decimal.compare, Int.compare_swap, Int.max_comm]

theorem Decimal.compare_eq_iff {a b : Decimal} : a.compare b = .eq ↔ a.beq b = true := by
  rw [Decimal.compare, Int.compare_eq_eq]
  exact (Decimal.beq_iff (by omega) (by omega)).symm

theorem DateTime.compare_eq_iff {a b : DateTime} : a.compare b = .eq ↔ a.beq b = true := by
  rw [DateTime.compare, Ordering.then_eq_eq, Int.compare_eq_eq, Nat.compare_eq_eq]
  refine Iff.trans ?_ DateTime.beq_iff.symm
  rw [DateTime.Instant.mk.injEq]

theorem DateTime.compare_swap (a b : DateTime) : (a.compare b).swap = b.compare a := by
  rw [DateTime.compare, Ordering.swap_then, Int.compare_swap, Nat.compare_swap]; rfl

namespace Value

theorem compareText_swap (a b : String) : (compareText a b).swap = compareText b a :=
  (compareOfLessAndEq_eq_swap String.le_antisymm String.le_total String.not_le).symm

theorem compareBool_swap (a b : Bool) : (compareBool a b).swap = compareBool b a :=
  Nat.compare_swap _ _

mutual

/-- **Swapping two values turns their order around.** -/
theorem compare_swap : ∀ a b : Value, (compare a b).swap = compare b a
  | .string a, b => by cases b with | string b => exact compareText_swap a b | _ => rfl
  | .boolean a, b => by cases b with | boolean b => exact compareBool_swap a b | _ => rfl
  | .int a, b => by cases b with | int b => exact Int.compare_swap _ _ | _ => rfl
  | .list a, b => by cases b with | list b => exact compareLists_swap a b | _ => rfl
  | .json a, b => by cases b with | json b => exact compareText_swap a b | _ => rfl
  | .object a, b => by cases b with | object b => exact compareMembers_swap a b | _ => rfl
  | .null, b => by cases b <;> rfl
  | .dateTime a, b => by cases b with | dateTime b => exact a.compare_swap b | _ => rfl
  | .decimal a, b => by cases b with | decimal b => exact a.compare_swap b | _ => rfl
termination_by structural a => a

theorem compareLists_swap : ∀ as bs : List Value,
    (compareLists as bs).swap = compareLists bs as
  | [], [] => rfl
  | [], _ :: _ => rfl
  | _ :: _, [] => rfl
  | a :: as, b :: bs => by
    rw [compareLists, Ordering.swap_then, compare_swap a b, compareLists_swap as bs, compareLists]
termination_by structural as => as

theorem compareMembers_swap : ∀ as bs : List (String × Value),
    (compareMembers as bs).swap = compareMembers bs as
  | [], [] => rfl
  | [], _ :: _ => rfl
  | _ :: _, [] => rfl
  | (k, a) :: as, (l, b) :: bs => by
    rw [compareMembers, Ordering.swap_then, Ordering.swap_then, compareText_swap,
      compare_swap a b, compareMembers_swap as bs, compareMembers]
termination_by structural as => as

end

/-! ## Equality -/

theorem compareText_eq_iff {a b : String} : compareText a b = .eq ↔ (a == b) = true := by
  rw [compareText, beq_iff_eq]
  exact compareOfLessAndEq_eq_eq String.le_refl String.not_le

theorem compareInt_eq_iff {a b : Int64} :
    Ord.compare a.toInt b.toInt = .eq ↔ (a == b) = true := by
  rw [Int.compare_eq_eq, beq_iff_eq, Int64.toInt_inj]

theorem compareBool_eq_iff {a b : Bool} : compareBool a b = .eq ↔ (a == b) = true := by
  cases a <;> cases b <;> decide

mutual

/-- **Values are equal if and only if neither comes before the other.** -/
theorem compare_eq_iff : ∀ {a b : Value}, compare a b = .eq ↔ beq a b = true
  | .string a, b => by
    cases b with
    | string b => exact compareText_eq_iff
    | _ => exact iff_of_false nofun nofun
  | .boolean a, b => by
    cases b with
    | boolean b => exact compareBool_eq_iff
    | _ => exact iff_of_false nofun nofun
  | .int a, b => by
    cases b with
    | int b => exact compareInt_eq_iff
    | _ => exact iff_of_false nofun nofun
  | .list a, b => by
    cases b with
    | list b => exact compareLists_eq_iff
    | _ => exact iff_of_false nofun nofun
  | .json a, b => by
    cases b with
    | json b => exact compareText_eq_iff
    | _ => exact iff_of_false nofun nofun
  | .object a, b => by
    cases b with
    | object b => exact compareMembers_eq_iff
    | _ => exact iff_of_false nofun nofun
  | .null, b => by
    cases b with
    | null => decide
    | _ => exact iff_of_false nofun nofun
  | .dateTime a, b => by
    cases b with
    | dateTime b => exact DateTime.compare_eq_iff
    | _ => exact iff_of_false nofun nofun
  | .decimal a, b => by
    cases b with
    | decimal b => exact Decimal.compare_eq_iff
    | _ => exact iff_of_false nofun nofun
termination_by structural a => a

theorem compareLists_eq_iff : ∀ {as bs : List Value},
    compareLists as bs = .eq ↔ beqLists as bs = true
  | [], [] => by decide
  | [], _ :: _ => by simp [compareLists, beqLists]
  | _ :: _, [] => by simp [compareLists, beqLists]
  | a :: as, b :: bs => by
    rw [compareLists, beqLists, Ordering.then_eq_eq, Bool.and_eq_true, compare_eq_iff,
      compareLists_eq_iff]
termination_by structural as => as

theorem compareMembers_eq_iff : ∀ {as bs : List (String × Value)},
    compareMembers as bs = .eq ↔ beqMembers as bs = true
  | [], [] => by decide
  | [], _ :: _ => by simp [compareMembers, beqMembers]
  | _ :: _, [] => by simp [compareMembers, beqMembers]
  | (k, a) :: as, (l, b) :: bs => by
    rw [compareMembers, beqMembers, Ordering.then_eq_eq, Ordering.then_eq_eq, Bool.and_eq_true,
      Bool.and_eq_true, compareText_eq_iff, compare_eq_iff, compareMembers_eq_iff]
termination_by structural as => as

end

end Value

end LateralSql

/-
  Values and key maps are totally ordered.

  The comparisons of `a` with `b`, of `b` with `c` and of `a` with `c` fit together (`Composes`): if
  one of the first two finds no difference the third is the other one, and if both go one way so
  does the third.  Comparisons that are decided by a further one where they find no difference
  still fit together (`Composes.lex`); kinds and values, lists and members are compared in this
  way, so the order of values is reduced to those of texts, numbers and instants.
-/
import Mathlib.Algebra.Order.Field.Basic
import Mathlib.Data.Rat.Cast.Order
import LateralSql.Proofs.ValueOrder

namespace LateralSql

/-! ## Comparisons that fit together -/

/-- `x`, `y` and `z` may be the comparisons of `a` with `b`, of `b` with `c` and of `a` with `c`. -/
structure Composes (x y z : Ordering) : Prop where
  left : x = .eq → z = y
  right : y = .eq → z = x
  same : x = y → z = x

namespace Composes

variable {x y z x' y' z' : Ordering}

/-- Further comparisons count where the first two find no difference. -/
theorem lex (h : Composes x y z) (h' : x = .eq → y = .eq → Composes x' y' z') :
    Composes (x.then x') (y.then y') (z.then z') := by
  have hthen {u v : Ordering} (hu : u ≠ .eq) : u.then v = u := by cases u <;> simp_all
  by_cases hx : x = .eq
  · by_cases hy : y = .eq
    · have hz : z = .eq := (h.left hx).trans hy
      rw [hx, hy, hz]
      exact h' hx hy
    · rw [hx, h.left hx, hthen hy, hthen hy]
      exact ⟨fun _ => rfl, fun heq => absurd heq hy, fun heq => heq.symm⟩
  · by_cases hy : y = .eq
    · rw [hy, h.right hy, hthen hx, hthen hx]
      exact ⟨fun heq => absurd heq hx, fun _ => rfl, fun _ => rfl⟩
    · rw [hthen hx, hthen hy]
      refine ⟨fun heq => absurd heq hx, fun heq => absurd heq hy, fun heq => ?_⟩
      rw [h.same heq, hthen hx]

theorem of_ord {α : Type} [Ord α] [Std.TransOrd α] (a b c : α) :
    Composes (Ord.compare a b) (Ord.compare b c) (Ord.compare a c) := by
  refine ⟨fun hab => Std.TransCmp.congr_left hab, fun hbc => (Std.TransCmp.congr_right hbc).symm,
    fun hsame => ?_⟩
  cases hab : Ord.compare a b with
  | lt => exact Std.TransCmp.lt_trans hab (hsame.symm.trans hab)
  | eq => exact (Std.TransCmp.congr_left hab).trans (hsame.symm.trans hab)
  | gt => exact Std.TransCmp.gt_trans hab (hsame.symm.trans hab)

theorem isLE (h : Composes x y z) (hx : x.isLE) (hy : y.isLE) : z.isLE := by
  by_cases heq : x = .eq
  · rw [h.left heq]
    exact hy
  · by_cases heq' : y = .eq
    · rw [h.right heq']
      exact hx
    · have hsame : x = y := by cases x <;> cases y <;> simp_all
      rw [h.same hsame]
      exact hx

end Composes

/-! ## Numbers, instants and texts -/

namespace Decimal

/-- The number that a decimal stands for. -/
def value (d : Decimal) : ℚ := d.digits * (10 : ℚ) ^ (-d.scale)

theorem digitsAt_eq (d : Decimal) {s : Int} (h : d.scale ≤ s) :
    (d.digitsAt s : ℚ) = d.value * (10 : ℚ) ^ s := by
  have hplaces : ((s - d.scale).toNat : Int) = -d.scale + s := by omega
  have hpow : ((Nat.pow 10 (s - d.scale).toNat : Nat) : ℚ) = (10 : ℚ) ^ (-d.scale + s) := by
    rw [← hplaces, zpow_natCast]
    exact Nat.cast_pow 10 _
  rw [digitsAt, value, Int.cast_mul, Int.cast_natCast, hpow, zpow_add₀ (by norm_num), mul_assoc]

/-- **Decimals are compared as numbers.** -/
theorem compare_eq_value (a b : Decimal) : a.compare b = Ord.compare a.value b.value := by
  have hpos : (0 : ℚ) < (10 : ℚ) ^ max a.scale b.scale := zpow_pos (by norm_num) _
  have ha := a.digitsAt_eq (le_max_left a.scale b.scale)
  have hb := b.digitsAt_eq (le_max_right a.scale b.scale)
  rw [Decimal.compare]
  rcases lt_trichotomy a.value b.value with h | h | h
  · rw [compare_lt_iff_lt.2 h, Int.compare_eq_lt, ← Int.cast_lt (R := ℚ), ha, hb]
    exact mul_lt_mul_of_pos_right h hpos
  · rw [compare_eq_iff_eq.2 h, Int.compare_eq_eq, ← Int.cast_inj (α := ℚ), ha, hb, h]
  · rw [compare_gt_iff_gt.2 h, Int.compare_eq_gt, ← Int.cast_lt (R := ℚ), ha, hb]
    exact mul_lt_mul_of_pos_right h hpos

theorem compare_composes (a b c : Decimal) :
    Composes (a.compare b) (b.compare c) (a.compare c) := by
  rw [compare_eq_value, compare_eq_value, compare_eq_value]
  exact .of_ord _ _ _

end Decimal

theorem DateTime.compare_composes (a b c : DateTime) :
    Composes (a.compare b) (b.compare c) (a.compare c) :=
  (Composes.of_ord _ _ _).lex fun _ _ => .of_ord _ _ _

namespace Value

theorem compareText_composes (a b c : String) :
    Composes (compareText a b) (compareText b c) (compareText a c) := by
  -- the order of texts is the one that the library has for them
  change Composes (Ord.compare a b) (Ord.compare b c) (Ord.compare a c)
  exact .of_ord a b c

/-! ## Values -/

/-- Values of different kinds are ordered by their kinds. -/
theorem compare_eq_then (a b : Value) :
    compare a b = (Ord.compare a.rank b.rank).then (compare a b) := by
  cases a <;> cases b <;> rfl

/-- It is enough to look at values of one kind. -/
theorem composes_of_rank {a b c : Value}
    (h : a.rank = b.rank → b.rank = c.rank → Composes (compare a b) (compare b c) (compare a c)) :
    Composes (compare a b) (compare b c) (compare a c) := by
  rw [compare_eq_then a b, compare_eq_then b c, compare_eq_then a c]
  refine (Composes.of_ord _ _ _).lex fun hab hbc => ?_
  exact h (Nat.compare_eq_eq.1 hab) (Nat.compare_eq_eq.1 hbc)

mutual

theorem compare_composes : ∀ a b c : Value,
    Composes (compare a b) (compare b c) (compare a c)
  | .string a, b, c => composes_of_rank fun hab hbc => by
    cases b with
    | string b => cases c with | string c => exact compareText_composes a b c | _ => cases hbc
    | _ => cases hab
  | .boolean a, b, c => composes_of_rank fun hab hbc => by
    cases b with
    | boolean b =>
      cases c with | boolean c => exact .of_ord a.toNat b.toNat c.toNat | _ => cases hbc
    | _ => cases hab
  | .int a, b, c => composes_of_rank fun hab hbc => by
    cases b with
    | int b => cases c with | int c => exact .of_ord a.toInt b.toInt c.toInt | _ => cases hbc
    | _ => cases hab
  | .list a, b, c => composes_of_rank fun hab hbc => by
    cases b with
    | list b => cases c with | list c => exact compareLists_composes a b c | _ => cases hbc
    | _ => cases hab
  | .json a, b, c => composes_of_rank fun hab hbc => by
    cases b with
    | json b => cases c with | json c => exact compareText_composes a b c | _ => cases hbc
    | _ => cases hab
  | .object a, b, c => composes_of_rank fun hab hbc => by
    cases b with
    | object b => cases c with | object c => exact compareMembers_composes a b c | _ => cases hbc
    | _ => cases hab
  | .null, b, c => composes_of_rank fun hab hbc => by
    cases b with
    | null => cases c with | null => exact ⟨id, id, fun _ => rfl⟩ | _ => cases hbc
    | _ => cases hab
  | .dateTime a, b, c => composes_of_rank fun hab hbc => by
    cases b with
    | dateTime b => cases c with | dateTime c => exact a.compare_composes b c | _ => cases hbc
    | _ => cases hab
  | .decimal a, b, c => composes_of_rank fun hab hbc => by
    cases b with
    | decimal b => cases c with | decimal c => exact a.compare_composes b c | _ => cases hbc
    | _ => cases hab
termination_by structural a => a

theorem compareLists_composes : ∀ as bs cs : List Value,
    Composes (compareLists as bs) (compareLists bs cs) (compareLists as cs)
  | [], bs, cs => by cases bs <;> cases cs <;> constructor <;> simp [compareLists]
  | a :: as, [], cs => by cases cs <;> constructor <;> simp [compareLists]
  | a :: as, b :: bs, [] => by constructor <;> simp [compareLists, eq_comm]
  | a :: as, b :: bs, c :: cs => by
    rw [compareLists, compareLists, compareLists]
    exact (compare_composes a b c).lex fun _ _ => compareLists_composes as bs cs
termination_by structural as => as

theorem compareMembers_composes : ∀ as bs cs : List (String × Value),
    Composes (compareMembers as bs) (compareMembers bs cs) (compareMembers as cs)
  | [], bs, cs => by cases bs <;> cases cs <;> constructor <;> simp [compareMembers]
  | a :: as, [], cs => by cases cs <;> constructor <;> simp [compareMembers]
  | a :: as, b :: bs, [] => by constructor <;> simp [compareMembers, eq_comm]
  | (k, a) :: as, (l, b) :: bs, (m, c) :: cs => by
    rw [compareMembers, compareMembers, compareMembers]
    refine Composes.lex ?_ fun _ _ => compareMembers_composes as bs cs
    exact (compareText_composes k l m).lex fun _ _ => compare_composes a b c
termination_by structural as => as

end

end Value

/-! ## Total orders -/

/-- Comparison orders the elements of a type totally, and equality is what it cannot tell apart. -/
structure TotallyOrdered (α : Type) [BEq α] [Ord α] : Prop where
  equivalence : Equivalence fun a b : α => (a == b) = true
  compare_eq_iff : ∀ a b : α, compare a b = .eq ↔ (a == b) = true
  compare_swap : ∀ a b : α, compare b a = (compare a b).swap
  /-- Exactly one of the two is less, or they are equal. -/
  trichotomy : ∀ a b : α,
    (compare a b = .lt ∧ (a == b) = false ∧ compare b a ≠ .lt) ∨
    (compare a b ≠ .lt ∧ (a == b) = true ∧ compare b a ≠ .lt) ∨
    (compare a b ≠ .lt ∧ (a == b) = false ∧ compare b a = .lt)
  lt_trans : ∀ a b c : α, compare a b = .lt → compare b c = .lt → compare a c = .lt
  le_trans : ∀ a b c : α, (compare a b).isLE → (compare b c).isLE → (compare a c).isLE

theorem TotallyOrdered.of_composes {α : Type} [BEq α] [Ord α] [EquivBEq α]
    (heq : ∀ a b : α, compare a b = .eq ↔ (a == b) = true)
    (hswap : ∀ a b : α, (compare a b).swap = compare b a)
    (hcomposes : ∀ a b c : α, Composes (compare a b) (compare b c) (compare a c)) :
    TotallyOrdered α where
  equivalence := ⟨fun _ => BEq.rfl, BEq.symm, BEq.trans⟩
  compare_eq_iff := heq
  compare_swap a b := (hswap a b).symm
  trichotomy a b := by
    rw [← hswap a b, ← Bool.not_eq_true, ← heq a b]
    cases Ord.compare a b <;> simp
  lt_trans a b c hab hbc := ((hcomposes a b c).same (hab.trans hbc.symm)).trans hab
  le_trans a b c hab hbc := (hcomposes a b c).isLE hab hbc

/-- **Values and key maps are totally ordered**, decimals by the numbers and date-times by the
    instants that they stand for. -/
theorem values_totally_ordered :
    TotallyOrdered Value ∧ TotallyOrdered KeyMap ∧
    (∀ a b : Decimal, compare (Value.decimal a) (.decimal b) = compare a.value b.value) ∧
    ∀ a b : DateTime, compare (Value.dateTime a) (.dateTime b) =
      compareLex (compareOn (·.seconds)) (compareOn (·.nanos)) a.instant b.instant := by
  refine ⟨.of_composes (fun a b => Value.compare_eq_iff) Value.compare_swap Value.compare_composes,
    .of_composes (fun a b => Value.compareMembers_eq_iff) (fun a b => ?_) (fun a b c => ?_),
    Decimal.compare_eq_value, fun a b => rfl⟩
  · exact Value.compareMembers_swap a.members b.members
  · exact Value.compareMembers_composes a.members b.members c.members

end LateralSql

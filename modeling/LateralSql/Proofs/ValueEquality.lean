/-
  Equality of values is an equivalence.

  Equal values need not be identical: decimals of different scales may be one number, and
  date-times of different offsets one instant.
-/
import Mathlib.Algebra.Order.Ring.Int
import LateralSql.Value.KeyMap

namespace LateralSql

namespace Decimal

/-- Each further place multiplies the digits by ten. -/
theorem digitsAt_of_le (d : Decimal) {s t : Int} (hs : d.scale ≤ s) (ht : s ≤ t) :
    d.digitsAt t = d.digitsAt s * (Nat.pow 10 (t - s).toNat : Nat) := by
  have hplaces : (t - d.scale).toNat = (s - d.scale).toNat + (t - s).toNat := by omega
  have hpow : Nat.pow 10 (t - d.scale).toNat =
      Nat.pow 10 (s - d.scale).toNat * Nat.pow 10 (t - s).toNat := by
    rw [hplaces]
    exact Nat.pow_add 10 _ _
  rw [digitsAt, digitsAt, hpow, Int.natCast_mul, Int.mul_assoc]

theorem pow_ten_ne_zero (n : Nat) : ((Nat.pow 10 n : Nat) : Int) ≠ 0 :=
  Int.natCast_ne_zero.2 (Nat.pow_pos (by decide)).ne'

/-- Numbers are equal if their digits are at any scale that shows all of them. -/
theorem beq_iff {a b : Decimal} {s : Int} (ha : a.scale ≤ s) (hb : b.scale ≤ s) :
    (a == b) = true ↔ a.digitsAt s = b.digitsAt s := by
  change a.beq b = true ↔ _
  have hown (d : Decimal) : d.digitsAt d.scale = d.digits := by simp [digitsAt]
  unfold beq
  split
  · next h =>
    rw [beq_iff_eq, a.digitsAt_of_le h hb, b.digitsAt_of_le le_rfl hb, hown,
      Int.mul_eq_mul_right_iff (pow_ten_ne_zero _)]
  · next h =>
    rw [beq_iff_eq, b.digitsAt_of_le (by omega) ha, a.digitsAt_of_le le_rfl ha, hown,
      Int.mul_eq_mul_right_iff (pow_ten_ne_zero _), eq_comm]

instance : EquivBEq Decimal where
  rfl := (beq_iff le_rfl le_rfl).2 rfl
  symm {a b} h := by
    rw [beq_iff (s := max a.scale b.scale) (by omega) (by omega)] at h ⊢
    exact h.symm
  trans {a b c} h₁ h₂ := by
    have hab := (beq_iff (s := max a.scale (max b.scale c.scale)) (by omega) (by omega)).1 h₁
    have hbc := (beq_iff (s := max a.scale (max b.scale c.scale)) (by omega) (by omega)).1 h₂
    exact (beq_iff (by omega) (by omega)).2 (hab.trans hbc)

end Decimal

theorem DateTime.beq_iff {a b : DateTime} : (a == b) = true ↔ a.instant = b.instant :=
  decide_eq_true_iff

instance : EquivBEq DateTime where
  rfl := DateTime.beq_iff.2 rfl
  symm h := DateTime.beq_iff.2 (DateTime.beq_iff.1 h).symm
  trans h₁ h₂ := DateTime.beq_iff.2 ((DateTime.beq_iff.1 h₁).trans (DateTime.beq_iff.1 h₂))

namespace Value

mutual

theorem beq_refl : ∀ a : Value, beq a a = true
  | .string a => beq_self_eq_true a
  | .boolean a => beq_self_eq_true a
  | .int a => beq_self_eq_true a
  | .list as => beqLists_refl as
  | .json a => beq_self_eq_true a
  | .object as => beqMembers_refl as
  | .null => rfl
  | .dateTime a => BEq.rfl (a := a)
  | .decimal a => BEq.rfl (a := a)
termination_by structural a => a

theorem beqLists_refl : ∀ as : List Value, beqLists as as = true
  | [] => rfl
  | a :: as => by rw [beqLists, beq_refl a, beqLists_refl as]; rfl
termination_by structural as => as

theorem beqMembers_refl : ∀ as : List (String × Value), beqMembers as as = true
  | [] => rfl
  | (k, a) :: as => by rw [beqMembers, beq_refl a, beqMembers_refl as, beq_self_eq_true]; rfl
termination_by structural as => as

end

mutual

theorem beq_comm : ∀ a b : Value, beq a b = beq b a
  | .string a, b => by cases b with | string b => exact BEq.comm (a := a) | _ => rfl
  | .boolean a, b => by cases b with | boolean b => exact BEq.comm (a := a) | _ => rfl
  | .int a, b => by cases b with | int b => exact BEq.comm (a := a) | _ => rfl
  | .list a, b => by cases b with | list b => exact beqLists_comm a b | _ => rfl
  | .json a, b => by cases b with | json b => exact BEq.comm (a := a) | _ => rfl
  | .object a, b => by cases b with | object b => exact beqMembers_comm a b | _ => rfl
  | .null, b => by cases b <;> rfl
  | .dateTime a, b => by cases b with | dateTime b => exact BEq.comm (a := a) | _ => rfl
  | .decimal a, b => by cases b with | decimal b => exact BEq.comm (a := a) | _ => rfl
termination_by structural a => a

theorem beqLists_comm : ∀ as bs : List Value, beqLists as bs = beqLists bs as
  | [], [] => rfl
  | [], _ :: _ => rfl
  | _ :: _, [] => rfl
  | a :: as, b :: bs => by rw [beqLists, beq_comm a b, beqLists_comm as bs, beqLists]
termination_by structural as => as

theorem beqMembers_comm : ∀ as bs : List (String × Value), beqMembers as bs = beqMembers bs as
  | [], [] => rfl
  | [], _ :: _ => rfl
  | _ :: _, [] => rfl
  | (k, a) :: as, (l, b) :: bs => by
    rw [beqMembers, beq_comm a b, beqMembers_comm as bs, BEq.comm (a := k), beqMembers]
termination_by structural as => as

end

mutual

theorem beq_trans : ∀ {a b c : Value}, beq a b = true → beq b c = true → beq a c = true
  | .string a, b, c, h₁, h₂ => by
    cases b with
    | string b => cases c with | string c => exact BEq.trans (a := a) h₁ h₂ | _ => cases h₂
    | _ => cases h₁
  | .boolean a, b, c, h₁, h₂ => by
    cases b with
    | boolean b => cases c with | boolean c => exact BEq.trans (a := a) h₁ h₂ | _ => cases h₂
    | _ => cases h₁
  | .int a, b, c, h₁, h₂ => by
    cases b with
    | int b => cases c with | int c => exact BEq.trans (a := a) h₁ h₂ | _ => cases h₂
    | _ => cases h₁
  | .list a, b, c, h₁, h₂ => by
    cases b with
    | list b => cases c with | list c => exact beqLists_trans h₁ h₂ | _ => cases h₂
    | _ => cases h₁
  | .json a, b, c, h₁, h₂ => by
    cases b with
    | json b => cases c with | json c => exact BEq.trans (a := a) h₁ h₂ | _ => cases h₂
    | _ => cases h₁
  | .object a, b, c, h₁, h₂ => by
    cases b with
    | object b => cases c with | object c => exact beqMembers_trans h₁ h₂ | _ => cases h₂
    | _ => cases h₁
  | .null, b, c, h₁, h₂ => by
    cases b with
    | null => exact h₂
    | _ => cases h₁
  | .dateTime a, b, c, h₁, h₂ => by
    cases b with
    | dateTime b => cases c with | dateTime c => exact BEq.trans (a := a) h₁ h₂ | _ => cases h₂
    | _ => cases h₁
  | .decimal a, b, c, h₁, h₂ => by
    cases b with
    | decimal b => cases c with | decimal c => exact BEq.trans (a := a) h₁ h₂ | _ => cases h₂
    | _ => cases h₁
termination_by structural a => a

theorem beqLists_trans : ∀ {as bs cs : List Value},
    beqLists as bs = true → beqLists bs cs = true → beqLists as cs = true
  | [], [], _, _, h₂ => h₂
  | a :: as, b :: bs, c :: cs, h₁, h₂ => by
    simp only [beqLists, Bool.and_eq_true] at h₁ h₂ ⊢
    exact ⟨beq_trans h₁.1 h₂.1, beqLists_trans h₁.2 h₂.2⟩
termination_by structural as => as

theorem beqMembers_trans : ∀ {as bs cs : List (String × Value)},
    beqMembers as bs = true → beqMembers bs cs = true → beqMembers as cs = true
  | [], [], _, _, h₂ => h₂
  | (k, a) :: as, (l, b) :: bs, (m, c) :: cs, h₁, h₂ => by
    simp only [beqMembers, Bool.and_eq_true] at h₁ h₂ ⊢
    exact ⟨⟨BEq.trans (a := k) h₁.1.1 h₂.1.1, beq_trans h₁.1.2 h₂.1.2⟩, beqMembers_trans h₁.2 h₂.2⟩
termination_by structural as => as

end

instance : EquivBEq Value where
  rfl {a} := beq_refl a
  symm {a b} h := (beq_comm b a).trans h
  trans := beq_trans

end Value

/-- Key maps are equal if their members are. -/
instance : EquivBEq KeyMap where
  rfl {a} := Value.beqMembers_refl a.members
  symm {a b} h := (Value.beqMembers_comm b.members a.members).trans h
  trans := Value.beqMembers_trans

end LateralSql

/-
  What is left of an integer when it is read as a value.

  An integer of 64 signed bits is left as it is.  A larger one becomes a double, which is a multiple
  of 2048 (`Double.ofNat_word`), and then a decimal of the double's first sixteen digits
  (`Double.value_toDecimal`).  `storedInteger` is what remains, and `IsStored` says for which
  integers that is all of them (`storedInteger_eq_iff`).
-/
import LateralSql.Proofs.IntegerLiterals
import LateralSql.Proofs.NearestDoubles
import LateralSql.Proofs.TotalOrder
import LateralSql.Proofs.ValueOrder
import LateralSql.Value.Read

namespace LateralSql

/-! ## Sixteen digits -/

namespace Decimal

theorem dropZeros_spec (n m : Nat) :
    (dropZeros n m).1 * Nat.pow 10 (dropZeros n m).2 = m := by
  induction n generalizing m with
  | zero => exact Nat.mul_one m
  | succ n ih =>
    rw [dropZeros]
    split
    · next hzero =>
      change (dropZeros n (m / 10)).1 * (Nat.pow 10 (dropZeros n (m / 10)).2 * 10) = m
      rw [← Nat.mul_assoc, ih]
      omega
    · exact Nat.mul_one m

/-- Moving the point by `k` places multiplies the digits. -/
theorem value_shift (digits scale : Int) (k : Nat) :
    value ⟨digits, scale - k⟩ = value ⟨digits * (Nat.pow 10 k : Nat), scale⟩ := by
  have hplaces : -(scale - k) = (k : Int) + -scale := by omega
  have hpow : ((Nat.pow 10 k : Nat) : ℚ) = (10 : ℚ) ^ (k : Int) := by
    rw [zpow_natCast]
    exact Nat.cast_pow 10 k
  rw [value, value, hplaces, zpow_add₀ (by norm_num), Int.cast_mul, Int.cast_natCast, hpow,
    mul_assoc]

/-- Zeros at the end do not change the number. -/
theorem value_normalized (d : Decimal) : d.normalized.value = d.value := by
  unfold normalized
  split
  · next hzero => simp [value, hzero]
  · have hdigits := dropZeros_spec (toString d.digits.natAbs).length d.digits.natAbs
    generalize dropZeros (toString d.digits.natAbs).length d.digits.natAbs = z at hdigits ⊢
    obtain ⟨m, k⟩ := z
    have hsigned : (if d.digits < 0 then -(m : Int) else m) * (Nat.pow 10 k : Nat) = d.digits := by
      have hcast : (m : Int) * (Nat.pow 10 k : Nat) = d.digits.natAbs := by
        rw [← Int.natCast_mul]
        exact congrArg Nat.cast hdigits
      split
      · rw [Int.neg_mul, hcast]
        omega
      · rw [hcast]
        omega
    change value ⟨if d.digits < 0 then -(m : Int) else m, d.scale - k⟩ = d.value
    rw [value_shift, hsigned]

end Decimal

namespace Double

namespace Binary

variable {b : Binary} {e : Nat}

/-- A whole number over a grid of whole numbers. -/
theorem overGrid_eq (he : b.exponent = e) (g : Nat) :
    b.overGrid g = (b.mantissa * Nat.pow 2 e, Nat.pow 10 g) := by
  have hneg (k : Nat) : (-(k : Int)).toNat = 0 := by omega
  unfold overGrid
  rw [he, Int.toNat_natCast, Int.toNat_natCast, hneg, hneg]
  exact congrArg₂ Prod.mk (Nat.mul_one _) (Nat.one_mul _)

theorem below_eq (he : b.exponent = e) (k : Nat) :
    b.below k = decide (b.mantissa * Nat.pow 2 e < Nat.pow 10 k) := by
  unfold below
  rw [overGrid_eq he]

end Binary

/-- The place of the last of sixteen digits, for numbers with 19 or 20. -/
def lastPlace (x : Nat) : Nat := if x < 10000000000000000000 then 3 else 4

/-- The sixteen digits start at the place of the number's first digit. -/
theorem magnitude_word {p : Normal} {r : Nat} (h : p.HasValue r 11) :
    (Binary.ofBits p.toFloat.toBits).magnitude = (lastPlace (r * 2048) + 16 : Nat) := by
  have hlow := p.low
  have hhigh := p.high
  obtain ⟨hmantissa, hexponent⟩ := p.ofBits_toBits
  generalize Binary.ofBits p.toFloat.toBits = b at hmantissa hexponent ⊢
  have hlog : b.mantissa.log2 = 52 := by rw [hmantissa, p.log2_mantissa]
  unfold Binary.magnitude lastPlace
  rcases h with ⟨rfl, he⟩ | ⟨rfl, hm, he⟩
  · -- at least 2 ^ 63, which has 19 digits
    have hguess : ((b.mantissa.log2 : Int) + b.exponent) * 30103 / 100000 = 18 := by
      rw [hlog, hexponent, he]
      rfl
    have hbelow := Binary.below_eq (b := b) (e := 11) (hexponent.trans he)
    have h17 : b.below (17 : Nat) = false := by
      rw [hbelow, decide_eq_false_iff_not, hmantissa]
      change ¬ p.mantissa * 2048 < 100000000000000000
      omega
    have h18 : b.below (18 : Nat) = false := by
      rw [hbelow, decide_eq_false_iff_not, hmantissa]
      change ¬ p.mantissa * 2048 < 1000000000000000000
      omega
    have h19 : b.below (19 : Nat) = decide (p.mantissa * 2048 < 10000000000000000000) := by
      rw [hbelow, hmantissa]
    rw [hguess]
    change ([((17 : Nat) : Int), (18 : Nat), (19 : Nat)].find? b.below).getD (20 : Nat) = _
    rw [List.find?_cons, h17, List.find?_cons, h18, List.find?_cons, h19]
    by_cases hshort : p.mantissa * 2048 < 10000000000000000000
    · rw [decide_eq_true hshort, if_pos hshort]
      rfl
    · rw [decide_eq_false hshort, if_neg hshort]
      rfl
  · -- 2 ^ 64, which has 20 digits
    have hguess : ((b.mantissa.log2 : Int) + b.exponent) * 30103 / 100000 = 19 := by
      rw [hlog, hexponent, he]
      rfl
    have hbelow := Binary.below_eq (b := b) (e := 12) (hexponent.trans he)
    rw [hmantissa, hm] at hbelow
    rw [hguess]
    change ([((18 : Nat) : Int), (19 : Nat), (20 : Nat)].find? b.below).getD (21 : Nat) = _
    rw [List.find?_cons, hbelow, List.find?_cons, hbelow, List.find?_cons, hbelow]
    rfl

/-- **A double between 2 ^ 63 and 2 ^ 64 keeps sixteen digits.** -/
theorem value_toDecimal {p : Normal} {r : Nat} (h : p.HasValue r 11) :
    (toDecimal p.toFloat).value =
      nearestMultiple (r * 2048) (Nat.pow 10 (lastPlace (r * 2048))) := by
  obtain ⟨hmantissa, hexponent⟩ := p.ofBits_toBits
  have hne : (Binary.ofBits p.toFloat.toBits).mantissa ≠ 0 := by
    have hlow := p.low
    omega
  have hplace : ((lastPlace (r * 2048) + 16 : Nat) : Int) - (significantDigits : Int) =
      lastPlace (r * 2048) := by
    change ((lastPlace (r * 2048) + 16 : Nat) : Int) - 16 = _
    omega
  have hgrid : (Binary.ofBits p.toFloat.toBits).overGrid (lastPlace (r * 2048)) =
      (r * 2048, Nat.pow 10 (lastPlace (r * 2048))) := by
    rcases h with ⟨rfl, he⟩ | ⟨rfl, hm, he⟩
    · rw [Binary.overGrid_eq (e := 11) (hexponent.trans he), hmantissa]
    · rw [Binary.overGrid_eq (e := 12) (hexponent.trans he), hmantissa, hm]
  unfold toDecimal
  dsimp only
  rw [if_neg hne, magnitude_word h, hplace, hgrid, p.isNegative_toFloat, if_neg (by decide),
    Decimal.value_normalized, ← Int.zero_sub, Decimal.value_shift, Decimal.value,
    Int.neg_zero, zpow_zero, mul_one, ← Int.natCast_mul, Int.cast_natCast]
  rfl

end Double

/-! ## Integers beyond 64 signed bits -/

/-- What is left of an integer. One beyond 64 signed bits is rounded to a multiple of 2048, and that
    to sixteen digits. -/
def storedInteger (n : Int) : Int :=
  if n ≤ Int64.maxValue.toInt then n
  else
    let x := Double.nearestMultiple n.toNat 2048
    Double.nearestMultiple x (Nat.pow 10 (Double.lastPlace x))

/-- The integers that are left as they are. With 19 digits the last three are zeros and the nearest
    multiple of 2048 is closer than half of the sixteenth digit, with 20 the last four are zeros. -/
def IsStored (n : Int) : Prop :=
  n ≤ Int64.maxValue.toInt ∨
    n < 10000000000000000000 ∧ 1000 ∣ n ∧ (n % 2048 < 500 ∨ 1548 < n % 2048) ∨
    10000000000000000000 ≤ n ∧ 10000 ∣ n

theorem storedInteger_of_le {n : Int} (h : n ≤ Int64.maxValue.toInt) : storedInteger n = n :=
  if_pos h

/-- The two roundings of an integer. -/
theorem storedInteger_of_gt {n : Int} (h : Int64.maxValue.toInt < n) :
    ∃ x : Int, 2048 ∣ x ∧ (n - x).natAbs ≤ 1024 ∧
      (x < 10000000000000000000 ∧ 1000 ∣ storedInteger n ∧
          (x - storedInteger n).natAbs ≤ 500 ∨
        10000000000000000000 ≤ x ∧ 10000 ∣ storedInteger n ∧
          (x - storedInteger n).natAbs ≤ 5000) := by
  have hmax : Int64.maxValue.toInt = 9223372036854775807 := rfl
  have hdvd := Double.dvd_nearestMultiple n.toNat 2048
  have hnear := Double.nearestMultiple_near n.toNat (show 0 < 2048 by decide)
  rw [storedInteger, if_neg (by omega)]
  dsimp only
  generalize Double.nearestMultiple n.toNat 2048 = x at hdvd hnear ⊢
  refine ⟨x, by omega, by omega, ?_⟩
  unfold Double.lastPlace
  split
  · next hshort =>
    have hdvd' := Double.dvd_nearestMultiple x 1000
    have hnear' := Double.nearestMultiple_near x (show 0 < 1000 by decide)
    left
    change _ ∧ 1000 ∣ (Double.nearestMultiple x 1000 : Int) ∧
      ((x : Int) - Double.nearestMultiple x 1000).natAbs ≤ 500
    omega
  · next hlong =>
    have hdvd' := Double.dvd_nearestMultiple x 10000
    have hnear' := Double.nearestMultiple_near x (show 0 < 10000 by decide)
    right
    change _ ∧ 10000 ∣ (Double.nearestMultiple x 10000 : Int) ∧
      ((x : Int) - Double.nearestMultiple x 10000).natAbs ≤ 5000
    omega

/-- No integer beyond 64 signed bits is left with the value of one within. -/
theorem lt_storedInteger {n : Int} (h : Int64.maxValue.toInt < n) :
    Int64.maxValue.toInt < storedInteger n := by
  have hmax : Int64.maxValue.toInt = 9223372036854775807 := rfl
  obtain ⟨x, hround⟩ := storedInteger_of_gt h
  omega

theorem storedInteger_eq_iff (n : Int) : storedInteger n = n ↔ IsStored n := by
  have hmax : Int64.maxValue.toInt = 9223372036854775807 := rfl
  unfold IsStored
  rcases lt_or_ge Int64.maxValue.toInt n with hgt | hle
  · obtain ⟨x, hround⟩ := storedInteger_of_gt hgt
    have hx : x = n / 2048 * 2048 ∨ x = n / 2048 * 2048 + 2048 := by omega
    omega
  · exact ⟨fun _ => .inl hle, fun _ => storedInteger_of_le hle⟩

namespace Value

/-- The number that a value stands for, if it is one. -/
def number? : Value → Option ℚ
  | .int n => some n.toInt
  | .decimal d => some d.value
  | _ => none

theorem ofInt_of_le {n : Int} (hmin : Int64.minValue.toInt ≤ n)
    (hmax : n ≤ Int64.maxValue.toInt) : ofInt n = .ok (.int (.ofInt n)) :=
  if_pos ⟨hmin, hmax⟩

/-- A larger integer goes through the nearest double and its sixteen digits. -/
theorem ofInt_of_gt {n : Int} (hgt : Int64.maxValue.toInt < n) (hmax : n < UInt64.size) :
    ∃ d : Decimal, ofInt n = .ok (.decimal d) ∧ d.value = storedInteger n := by
  have hmax' : Int64.maxValue.toInt = 9223372036854775807 := rfl
  have hsize : UInt64.size = 18446744073709551616 := rfl
  obtain ⟨p, hp, hvalue⟩ := Double.ofNat_word (n := n.natAbs) (by omega) (by omega)
  have hnat : n.natAbs = n.toNat := by omega
  refine ⟨Double.toDecimal p.toFloat, ?_, ?_⟩
  · rw [ofInt, if_neg (by omega), Double.ofInt, if_neg (by omega), hp, ofFloat,
      if_pos p.isFinite_toFloat]
  · rw [Double.value_toDecimal hvalue, storedInteger, if_neg (by omega), hnat]
    rfl

/-- The value of an integer is a number of one of the two kinds. -/
theorem exists_ofInt {n : Int} (hmin : Int64.minValue.toInt ≤ n) (hmax : n < UInt64.size) :
    ∃ v, ofInt n = .ok v ∧ v.number? = some (storedInteger n : ℚ) ∧
      (n ≤ Int64.maxValue.toInt ∧ v = .int (.ofInt n) ∨
        Int64.maxValue.toInt < n ∧ ∃ d, v = .decimal d) := by
  rcases lt_or_ge Int64.maxValue.toInt n with hgt | hle
  · obtain ⟨d, hd, hvalue⟩ := ofInt_of_gt hgt hmax
    exact ⟨.decimal d, hd, congrArg some hvalue, .inr ⟨hgt, d, rfl⟩⟩
  · refine ⟨.int (.ofInt n), ofInt_of_le hmin hle, ?_, .inl ⟨hle, rfl⟩⟩
    have hlt : n < 2 ^ 63 := Int.lt_of_le_of_lt hle (by decide)
    rw [storedInteger_of_le hle, number?, Int64.toInt_ofInt_of_le hmin hlt]

theorem eq_of_number? {v : Value} {x : ℚ} (h : v.number? = some x) :
    (∃ n : Int64, v = .int n ∧ (n.toInt : ℚ) = x) ∨
      ∃ d : Decimal, v = .decimal d ∧ d.value = x := by
  cases v with
  | int n => exact .inl ⟨n, rfl, Option.some.inj h⟩
  | decimal d => exact .inr ⟨d, rfl, Option.some.inj h⟩
  | _ => cases h

/-- Numbers are equal as values when they are the same number of the same kind. -/
theorem beq_iff_of_number? {v w : Value} {x y : ℚ} (hv : v.number? = some x)
    (hw : w.number? = some y) : (v == w) = true ↔ v.rank = w.rank ∧ x = y := by
  rcases eq_of_number? hv with ⟨a, rfl, rfl⟩ | ⟨a, rfl, rfl⟩ <;>
    rcases eq_of_number? hw with ⟨b, rfl, rfl⟩ | ⟨b, rfl, rfl⟩
  · rw [Int.cast_inj, Int64.toInt_inj]
    exact (beq_iff_eq (a := a)).trans (and_iff_right rfl).symm
  · exact ⟨Bool.noConfusion, fun h => absurd h.1 (show ¬2 = 8 by decide)⟩
  · exact ⟨Bool.noConfusion, fun h => absurd h.1 (show ¬8 = 2 by decide)⟩
  · rw [← compare_eq_iff_eq (a := a.value), ← Decimal.compare_eq_value, Decimal.compare_eq_iff]
    exact (and_iff_right rfl).symm

end Value

/-! ## Main result -/

/-- **What is left of integers.**  The literal of an integer of 64 bits, with a sign or without, is
    read as that integer.  Its value is an integer up to the end of the signed range and a decimal
    beyond.  The value's number is `storedInteger`, which is the integer itself if and only if
    `IsStored` holds of it; two integers give equal values if and only if the same is left of
    both. -/
theorem integers_read {n : Int} (hmin : Int64.minValue.toInt ≤ n) (hmax : n < UInt64.size) :
    Json.parse? (toString n) = some (.int n) ∧
    (storedInteger n = n ↔ IsStored n) ∧
    ∃ v, Value.ofJson (.int n) = .ok v ∧ v.number? = some (storedInteger n : ℚ) ∧
      (n ≤ Int64.maxValue.toInt ∧ v = .int (.ofInt n) ∨
        Int64.maxValue.toInt < n ∧ ∃ d, v = .decimal d) ∧
      ∀ {m : Int} {w : Value}, Int64.minValue.toInt ≤ m → m < UInt64.size →
        Value.ofJson (.int m) = .ok w → ((v == w) = true ↔ storedInteger n = storedInteger m) := by
  refine ⟨Json.parse?_toString hmin hmax, storedInteger_eq_iff n, ?_⟩
  obtain ⟨v, hv, hnumber, hkind⟩ := Value.exists_ofInt hmin hmax
  refine ⟨v, hv, hnumber, hkind, ?_⟩
  intro m w hmin' hmax' hw
  obtain ⟨w', hw', hnumber', hkind'⟩ := Value.exists_ofInt hmin' hmax'
  obtain rfl : w' = w := Except.ok.inj (hw'.symm.trans hw)
  rw [Value.beq_iff_of_number? hnumber hnumber', Int.cast_inj]
  refine and_iff_right_of_imp fun hsame => ?_
  -- what is left tells the two kinds apart
  rcases hkind with ⟨hle, rfl⟩ | ⟨hgt, d, rfl⟩ <;>
    rcases hkind' with ⟨hle', rfl⟩ | ⟨hgt', d', rfl⟩
  · rfl
  · rw [storedInteger_of_le hle] at hsame
    exact absurd (lt_storedInteger hgt') (by omega)
  · rw [storedInteger_of_le hle'] at hsame
    exact absurd (lt_storedInteger hgt) (by omega)
  · rfl

/-- The second integer beyond the signed range equals the one that it is rounded to. -/
theorem integers_read_rounded :
    Json.parse? (toString (9223372036854775809 : Int)) = some (.int 9223372036854775809) ∧
    storedInteger 9223372036854775809 = 9223372036854776000 ∧
    ∃ v, Value.ofJson (.int 9223372036854775809) = .ok v ∧
      v.number? = some ((9223372036854776000 : Int) : ℚ) ∧ (∃ d, v = .decimal d) ∧
      ∀ w, Value.ofJson (.int 9223372036854776000) = .ok w → (v == w) = true := by
  obtain ⟨hparse, -, v, hv, hnumber, hkind, hequal⟩ :=
    integers_read (n := 9223372036854775809) (by decide) (by decide)
  have hstored : storedInteger 9223372036854775809 = 9223372036854776000 := by decide
  rw [hstored] at hnumber
  refine ⟨hparse, hstored, v, hv, hnumber, ?_, fun w hw => ?_⟩
  · exact hkind.elim (fun h => absurd h.1 (by decide)) And.right
  · exact (hequal (by decide) (by decide) hw).2 (by decide)

/-- The first two integers above the signed range are read as the same number, which is neither. -/
theorem adjacent_integers_merged :
    Value.ofJson (.int 9223372036854775808) = .ok (.decimal ⟨9223372036854776, -3⟩) ∧
    Value.ofJson (.int 9223372036854775809) = .ok (.decimal ⟨9223372036854776, -3⟩) ∧
    (⟨9223372036854776, -3⟩ : Decimal).value = 9223372036854776000 := by
  refine ⟨rfl, rfl, (Decimal.value_shift 9223372036854776 0 3).trans ?_⟩
  change Decimal.value ⟨9223372036854776000, 0⟩ = 9223372036854776000
  rw [Decimal.value, Int.neg_zero, zpow_zero, mul_one]
  rfl

end LateralSql
